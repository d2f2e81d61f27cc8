import Emend.Fragment
import Emend.Patch

/-!
# Excerpts

The lines around a patch, numbered from one, with the patched columns underlined. The lines that
the patch touches carry an underline each; the lines before and after are context. A line is shown
without its trailing carriage returns, and the underline never leaves the shown text, except that
it has at least one caret.
-/

namespace Emend

/-- One shown line: its number from zero, its text, and its underline as the number of blanks and
of carets. -/
structure ExcerptRow where
  line : Nat
  text : Text
  underline : Option (Nat × Nat)
  deriving DecidableEq, Repr

namespace Patch

/-- The line as it is shown. -/
def shownLine (p : Patch) (line : Nat) : Text :=
  (p.source.text.slice (p.source.startAt line) (p.source.endAt line)).trimRight (· = '\r')

/-- The blanks and the carets under a line that the patch touches. -/
def underline (p : Patch) (line : Nat) : Nat × Nat :=
  let (first, last) := p.lineRange
  let start := p.source.startAt line
  let width := (p.shownLine line).length
  let blanks := if line = first then p.start - start else 0
  let finish := if line = last ∧ p.stop ≤ start + width then p.stop - start else width
  (blanks, max 1 (finish - blanks))

/-- One row of the excerpt. -/
def excerptRow (p : Patch) (line : Nat) : ExcerptRow :=
  let (first, last) := p.lineRange
  { line
    text := p.shownLine line
    underline := if first ≤ line ∧ line ≤ last then some (p.underline line) else none }

/-- The rows from line `top` to line `bottom`; none if `bottom` is before `top`. -/
def excerptRows (p : Patch) (top : Nat) (bottom : Int) : List ExcerptRow :=
  (List.range' top (bottom + 1 - top).toNat).map p.excerptRow

/-- A number in a column of the given width. -/
def gutter (width number : Nat) : Text :=
  let digits := Nat.toDigits 10 number
  List.replicate (width - digits.length) ' ' ++ digits ++ " | ".toList

/-- The fragments of a row whose gutter has the given width. -/
def rowFragments (width : Nat) (row : ExcerptRow) : List Fragment :=
  [⟨"class:lineno", gutter width (row.line + 1)⟩, ⟨"", row.text ++ ['\n']⟩] ++
    match row.underline with
    | none => []
    | some (blanks, carets) =>
      [⟨"class:lineno", List.replicate width ' ' ++ " | ".toList⟩,
        ⟨"class:highlight", List.replicate blanks ' ' ++ List.replicate carets '^' ++ ['\n']⟩]

/-- The line above the excerpt that says where the patch starts. -/
def excerptHeader (p : Patch) : Fragment :=
  ⟨"class:header",
    ("line " ++ Text.ofNat (p.source.lineAt p.start + 1) ++ ", column " ++
      Text.ofNat (p.source.columnAt p.start + 1) ++ " of " ++ p.source.shownUrl ++ ":\n").toList⟩

/-- The excerpt between two lines. Its gutter is as wide as the number of the last line, which has
to be written for this, also if no line is shown. -/
def excerptBetween (p : Patch) (top : Nat) (bottom : Int) : Except Fault (List Fragment) :=
  (Text.writeInt (bottom + 1)).map fun number =>
    p.excerptHeader :: (p.excerptRows top bottom).flatMap (rowFragments number.length)

/-- The first line shown with the given number of context lines. -/
def excerptTop (p : Patch) (context : Int) : Nat := ((p.lineRange.1 : Int) - context).toNat

/-- The last line shown with the given number of context lines. -/
def excerptBottom (p : Patch) (context : Int) : Int :=
  min ((p.source.lineCount : Int) - 1) ((p.lineRange.2 : Int) + context)

/-- The excerpt with the given number of lines of context above and below. -/
def excerpt (p : Patch) (context : Int) : Except Fault (List Fragment) :=
  p.excerptBetween (p.excerptTop context) (p.excerptBottom context)

/-- The excerpt is shown if the number of its last line can be written. -/
theorem excerpt_of_writable (p : Patch) {context : Int}
    (writable : Text.isWritable (p.excerptBottom context + 1) = true) :
    p.excerpt context = .ok (p.excerptHeader ::
      (p.excerptRows (p.excerptTop context) (p.excerptBottom context)).flatMap
        (rowFragments (Text.ofInt (p.excerptBottom context + 1)).length)) := by
  rw [excerpt, excerptBetween, Text.writeInt_of_writable writable]
  rfl

theorem excerpt_of_unwritable (p : Patch) {context : Int}
    (unwritable : Text.isWritable (p.excerptBottom context + 1) = false) :
    p.excerpt context = .error .tooLongNumber := by
  rw [excerpt, excerptBetween, Text.writeInt_of_unwritable unwritable]
  rfl

end Patch

end Emend
