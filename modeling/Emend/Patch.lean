import Emend.Source

/-!
# Patches

A patch proposes to replace the range from `start` up to but excluding `stop` of its source. An
empty range is an insertion and an empty replacement a deletion. That the range lies in the text is
part of the type, so a patch that exists can always be shown and applied alone.
-/

namespace Emend

/-- A proposed replacement of one range of a source. -/
structure Patch where
  source : Source
  start : Nat
  stop : Nat
  replacement : Text
  ordered : start ≤ stop
  inside : stop ≤ source.length
  deriving DecidableEq

namespace Patch

/-- The patch over a range given by a caller; without an end it extends to the end of the text. -/
def build (source : Source) (start : Int) (stop : Option Int) (replacement : Text) :
    Except Fault Patch :=
  let last := stop.getD source.length
  if fits : 0 ≤ start ∧ start ≤ last ∧ last ≤ source.length then
    .ok { source, start := start.toNat, stop := last.toNat, replacement,
          ordered := by omega, inside := by omega }
  else .error (.showing [start, last] (.invalidRange start last source.length))

/-- The text that the patch would replace. -/
def replaced (p : Patch) : Text := p.source.text.slice p.start p.stop

/-- Whether the patch would change nothing. -/
def isNoop (p : Patch) : Bool := p.replacement = p.replaced

/-- The first and the last line that the patch touches. A range that ends right after a newline
does not touch the line after it. -/
def lineRange (p : Patch) : Nat × Nat :=
  let first := p.source.lineAt p.start
  let last := p.source.lineAt p.stop
  if first < last ∧ p.source.columnAt p.stop = 0 then (first, last - 1) else (first, last)

/-- How a patch describes itself; lines and columns count from one. -/
def describe (p : Patch) : String :=
  let place (offset : Nat) : String :=
    Text.ofNat (p.source.lineAt offset + 1) ++ ":" ++ Text.ofNat (p.source.columnAt offset + 1)
  "<Patch: on " ++ p.source.shownUrl ++ " from " ++ place p.start ++ " to " ++ place p.stop ++
    ": " ++ String.ofList p.replacement.quoted ++ ">"

end Patch

end Emend
