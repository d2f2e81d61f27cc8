import Emend.Fragment
import Emend.Patch

/-!
# Diffs

What a patch does to the lines it touches. The old block runs from the start of the first touched
line to the end of the content of the last, or to the end of the patch if that is later; the new
block is the old one with the replacement in place. Every line of the old block is shown as removed
and every line of the new one as added. A body that is too long keeps its first and last lines, and
one line in between says how many are left out.
-/

namespace Emend

/-- One line of a diff. -/
inductive DiffLine where
  | removed (text : Text)
  | added (text : Text)
  | omitted (count : Nat)
  deriving DecidableEq, Repr

/-- The fragment that shows a line of a diff. -/
def DiffLine.fragment : DiffLine → Fragment
  | .removed text => ⟨"class:removed", '-' :: text ++ ['\n']⟩
  | .added text => ⟨"class:added", '+' :: text ++ ['\n']⟩
  | .omitted count =>
    ⟨"class:omitted", ("... " ++ Text.ofNat count ++ " line(s) omitted ...\n").toList⟩

namespace Patch

/-- Where the blocks of the diff start: at the first touched line. -/
def blockStart (p : Patch) : Nat := p.source.startAt p.lineRange.1

/-- Where the old block ends. -/
def blockStop (p : Patch) : Nat := max (p.source.endAt p.lineRange.2) p.stop

/-- The lines as they are. -/
def oldBlock (p : Patch) : Text := p.source.text.slice p.blockStart p.blockStop

/-- The lines as the patch would make them. -/
def newBlock (p : Patch) : Text :=
  p.source.text.slice p.blockStart p.start ++ p.replacement ++
    p.source.text.slice p.stop p.blockStop

/-- All lines of the diff. -/
def diffLines (p : Patch) : List DiffLine :=
  p.oldBlock.displayLines.map .removed ++ p.newBlock.displayLines.map .added

/-- At most `limit` lines: a longer body keeps a head and a tail, the head one line longer where
they cannot be equal, around a line that counts the rest. -/
def truncate (limit : Nat) (body : List DiffLine) : List DiffLine :=
  if limit < body.length then
    let tail := (limit - 1) / 2
    let head := limit - 1 - tail
    body.take head ++ [.omitted (body.length - head - tail)] ++ body.drop (body.length - tail)
  else body

/-- The lines of the diff that are shown when there is room for `limit`; three are always shown. -/
def diffBody (p : Patch) (limit : Int) : List DiffLine := truncate (max 3 limit).toNat p.diffLines

/-- The line above the diff that says where it is. -/
def diffHeader (p : Patch) : Fragment :=
  ⟨"class:header",
    ("@@ " ++ p.source.shownUrl ++ ":" ++ Text.ofNat (p.lineRange.1 + 1) ++ " @@\n").toList⟩

/-- The diff in at most `limit` lines and its header. -/
def diff (p : Patch) (limit : Int) : List Fragment :=
  p.diffHeader :: (p.diffBody limit).map DiffLine.fragment

end Patch

end Emend
