import Emend.Fault
import Emend.Text.Lines

/-!
# Sources and their lines

A source is a text with the name of the file it was read from. Its line table lists the offset at
which each line starts: zero, and one past every newline. Lines and columns count from zero. The
line of an offset is searched for in the table by halving.

Offsets, lines and columns come from callers as whole numbers, so every operation says which of
them it refuses. `lineEnd` reads the table at the next line before it checks the line itself, and a
negative place counts from the end of the table; `lineStart` refuses every negative line. A refusal
names the number that it refuses, if that can be written.
-/

namespace Emend

/-- A text and the name of the file it was read from, if it has one. -/
structure Source where
  text : Text
  url : Option String := none
  deriving DecidableEq, Repr

namespace Source

/-- One past every newline of a text that starts at the given offset. -/
def startsAfter : Nat → Text → List Nat
  | _, [] => []
  | offset, c :: rest =>
    if c = '\n' then (offset + 1) :: startsAfter (offset + 1) rest
    else startsAfter (offset + 1) rest

/-- The offset at which each line starts. -/
def lineStarts (s : Source) : List Nat := 0 :: startsAfter 0 s.text

/-- The number of characters. -/
def length (s : Source) : Nat := s.text.length

/-- The number of lines, with the part after the last newline. -/
@[inline]
def lineCount (s : Source) : Nat := s.lineStarts.length

/-- The place in an increasing table after all entries up to an offset, searched for by halving
between two places. -/
def placeIn (table : List Nat) (offset low high : Nat) : Nat :=
  if low < high then
    let middle := (low + high) / 2
    if offset < table.getD middle 0 then placeIn table offset low middle
    else placeIn table offset (middle + 1) high
  else low
termination_by high - low

/-- The line of an offset within the text: the last line that starts at or before it. -/
def lineAt (s : Source) (offset : Nat) : Nat :=
  let table := s.lineStarts
  placeIn table offset 0 table.length - 1

/-- Where a line starts; zero for a line that does not exist. -/
@[inline]
def startAt (s : Source) (line : Nat) : Nat := s.lineStarts.getD line 0

/-- Where the content of a line ends: before the next line's newline, or at the end of the text. -/
def endAt (s : Source) (line : Nat) : Nat :=
  if line + 1 < s.lineCount then s.startAt (line + 1) - 1 else s.length

/-- The column of an offset within the text. -/
def columnAt (s : Source) (offset : Nat) : Nat := offset - s.startAt (s.lineAt offset)

/-- The offset as a natural number, if it lies in the text or at its end. -/
def checked (s : Source) (offset : Int) : Except Fault Nat :=
  if offset < 0 ∨ (s.length : Int) < offset then
    .error (.showing [offset] (.invalidRange offset offset s.length))
  else .ok offset.toNat

/-- The line of an offset. -/
def lineOf (s : Source) (offset : Int) : Except Fault Nat := (s.checked offset).map s.lineAt

/-- The column of an offset within its line. -/
def columnOf (s : Source) (offset : Int) : Except Fault Nat := (s.checked offset).map s.columnAt

/-- The line and the column of an offset. -/
def location (s : Source) (offset : Int) : Except Fault (Nat × Nat) :=
  (s.checked offset).map fun o => (s.lineAt o, s.columnAt o)

/-- The offset of the first character of a line. -/
@[inline]
def lineStart (s : Source) (line : Int) : Except Fault Nat :=
  if line < 0 ∨ (s.lineCount : Int) ≤ line then
    .error (.showing [line] (.lineOutOfRange line s.url))
  else .ok (s.startAt line.toNat)

/-- The entry of the line table at a place that may count from its end. -/
@[inline]
def tableEntry (s : Source) (place : Int) : Except Fault Nat :=
  let place := if place < 0 then place + s.lineCount else place
  if place < 0 then .error .beyondLineTable
  else match s.lineStarts[place.toNat]? with
    | some start => .ok start
    | none => .error .beyondLineTable

/-- The offset just past the content of a line, before its newline. -/
@[inline]
def lineEnd (s : Source) (line : Int) : Except Fault Int :=
  if line + 1 < s.lineCount then (s.tableEntry (line + 1)).map fun start => (start : Int) - 1
  else (s.lineStart line).map fun _ => (s.length : Int)

/-- The offset of a column in a line; the column may be at most the length of the line. -/
def offsetOf (s : Source) (line column : Int) : Except Fault Nat := do
  let start ← s.lineStart line
  let stop ← s.lineEnd line
  let offset := (start : Int) + column
  if column < 0 ∨ stop < offset then
    .error (.showing [offset] (.invalidRange offset offset s.length))
  else .ok offset.toNat

/-- The text of a line without its newline. -/
def lineText (s : Source) (line : Int) : Except Fault Text := do
  let start ← s.lineStart line
  let stop ← s.lineEnd line
  .ok (s.text.slice start stop.toNat)

/-- The text of a range; without an end it extends to the end of the text. -/
def spanText (s : Source) (start : Int) (stop : Option Int) : Except Fault Text :=
  let stop := stop.getD s.length
  if start < 0 ∨ (s.length : Int) < stop ∨ stop < start then
    .error (.showing [start, stop] (.invalidRange start stop s.length))
  else .ok (s.text.slice start.toNat stop.toNat)

/-- The lines of the text, without their newlines. -/
def lines (s : Source) : List Text := s.text.splitNewlines

/-- The name under which messages show the source. -/
def shownUrl (s : Source) : String := urlOrText s.url

/-- How a source describes itself. -/
def describe (s : Source) : String :=
  let url := match s.url with
    | none => "None"
    | some url => quoted url
  "SourceText(" ++ url ++ ", length=" ++ Text.ofNat s.length ++ ")"

end Source

end Emend
