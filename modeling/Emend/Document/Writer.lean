import Emend.Document.Reader
import Emend.Fault

/-!
# Writing documents of settings

Tables are sections with a blank line between them. In a section the plain entries come first, one
to a line. An array has one item to a line. A table in an array is written in braces, unless one of
the tables of the array is too long for a line or would span lines: then each has a section of its
own.

A document is written piece by piece. A value that cannot be written ends it, and what came before
stays written.
-/

namespace Emend.Document

/-- The letter that stands for a character after a backslash. -/
def escapeLetter? (c : Char) : Option Char :=
  if c = '\x08' then some 'b'
  else if c = '\n' then some 'n'
  else if c = '\x0c' then some 'f'
  else if c = '\r' then some 'r'
  else if c = '"' then some '"'
  else if c = '\\' then some '\\'
  else none

/-- A character of a string. -/
def writeChar (c : Char) : Text :=
  match escapeLetter? c with
  | some letter => ['\\', letter]
  | none => if isControl c then '\\' :: 'u' :: Text.hexadecimal 4 c.toNat else [c]

/-- A string in quotes. -/
def writeString (t : Text) : Text := '"' :: t.flatMap writeChar ++ ['"']

/-- A part of a key, in quotes only if it needs them. -/
def writeKey (t : Text) : Text := if !t.isEmpty && t.all isBare then t else writeString t

/-- The margin of items at a depth. -/
def margin (depth : Nat) : Text := List.replicate (4 * depth) ' '

mutual

/-- A value in its place at a depth of nested arrays. -/
def writeValue : Nat → Value → Except Fault Text
  | _, .null => .error (.setting (.notSavable "NoneType"))
  | _, .bool b => .ok (if b then "true".toList else "false".toList)
  | _, .text t => .ok (writeString t)
  | _, .array [] => .ok ['[', ']']
  | depth, .array (first :: rest) => do
    let lines ← writeItems (depth + 1) (first :: rest)
    .ok ('[' :: '\n' :: lines ++ margin depth ++ [']'])
  | _, .table [] => .ok ['\x7b', '\x7d']
  | _, .table (first :: rest) => do
    let entries ← writeEntries (first :: rest)
    .ok ('\x7b' :: ' ' :: entries ++ [' ', '\x7d'])
  | _, .int n => Text.writeInt n
  | _, .float x => .ok (Decimal.ofFloat x).toList
  | _, .moment m => .ok (m.written ' ')
  | _, .date d => .ok d.written
  | _, .clock c => .ok c.written

/-- Items, each on a line of its own. -/
def writeItems : Nat → List Value → Except Fault Text
  | _, [] => .ok []
  | depth, v :: rest => do
    let first ← writeValue depth v
    let more ← writeItems depth rest
    .ok (margin depth ++ first ++ ',' :: '\n' :: more)

/-- Entries with commas between them. -/
def writeEntries : List (Text × Value) → Except Fault Text
  | [] => .ok []
  | [(k, v)] => do
    let written ← writeValue 0 v
    .ok (writeKey k ++ " = ".toList ++ written)
  | (k, v) :: rest => do
    let written ← writeValue 0 v
    let more ← writeEntries rest
    .ok (writeKey k ++ " = ".toList ++ written ++ ", ".toList ++ more)

end

/-- The longest line of a table in braces. -/
def maxLine : Nat := 100

/-- Whether a table in an array fits a line in braces. -/
def fitsLine (v : Value) : Except Fault Bool := do
  let written ← writeValue 0 v
  let line := margin 1 ++ written ++ [',']
  .ok (line.length ≤ maxLine && !line.contains '\n')

/-- Whether a value is a table. -/
def isTable : Value → Bool
  | .table _ => true
  | _ => false

/-- Whether a value has sections of its own. -/
def hasSections : Value → Except Fault Bool
  | .table _ => .ok true
  | .array items =>
    if !items.isEmpty && items.all isTable then do
      let fits ← items.mapM fitsLine
      .ok (fits.any (! ·))
    else .ok false
  | _ => .ok false

/-- What is written, and the fault that ended it early. -/
structure Output where
  text : Text
  fault : Option Fault := none
  deriving DecidableEq, Repr

namespace Output

/-- A piece that is written as a whole or not at all. -/
def piece : Except Fault Text → Output
  | .ok text => { text }
  | .error fault => { text := [], fault := some fault }

/-- Go on writing, unless a fault has ended it. -/
def andThen (first next : Output) : Output :=
  match first.fault with
  | none => { text := first.text ++ next.text, fault := next.fault }
  | some _ => first

end Output

/-- The entries of a section that take a line, and whether there are others. -/
def plainEntries : Entries → Except Fault (Entries × Bool)
  | [] => .ok ([], false)
  | (k, v) :: rest => do
    let own ← hasSections v
    let (plain, others) ← plainEntries rest
    .ok (if own then (plain, true) else ((k, v) :: plain, others))

/-- Entries, each on a line of its own. -/
def writeLines : Entries → Output
  | [] => { text := [] }
  | (k, v) :: rest =>
    (Output.piece ((writeValue 0 v).map fun written =>
      writeKey k ++ " = ".toList ++ written ++ ['\n'])).andThen (writeLines rest)

/-- The header of a section. A section that has neither plain entries nor is empty needs no header,
unless it is an element of an array. -/
def writeHeader (name : Text) (element plain others : Bool) : Text :=
  if element then "[[".toList ++ name ++ "]]\n".toList
  else if !name.isEmpty && (plain || !others) then '[' :: name ++ [']', '\n']
  else []

/-- The header and the plain entries of a section. -/
def writeOpening (name : Text) (element : Bool) (entries : Entries) : Output :=
  match plainEntries entries with
  | .error fault => { text := [], fault := some fault }
  | .ok (plain, others) =>
    Output.andThen { text := writeHeader name element (!plain.isEmpty) others } (writeLines plain)

/-- The name of a section inside of another. -/
def sectionName (name : Text) (k : Text) : Text :=
  if name.isEmpty then writeKey k else name ++ '.' :: writeKey k

/-- A blank line, if something was written before. -/
def blankLine (started : Bool) : Text := if started then ['\n'] else []

mutual

/-- The sections of the entries that have some; `started` says whether something was written before
them. -/
def writeSections (name : Text) : Bool → Entries → Output
  | _, [] => { text := [] }
  | started, (k, .table entries) :: rest =>
    let opening := writeOpening (sectionName name k) false entries
    Output.andThen { text := blankLine started } <| opening.andThen <|
      (writeSections (sectionName name k) (!opening.text.isEmpty) entries).andThen <|
        writeSections name true rest
  | started, (k, .array items) :: rest =>
    match hasSections (.array items) with
    | .error fault => { text := [], fault := some fault }
    | .ok true =>
      (writeElements (sectionName name k) started items).andThen (writeSections name true rest)
    | .ok false => writeSections name started rest
  | started, _ :: rest => writeSections name started rest

/-- The sections of the elements of an array of tables. -/
def writeElements (name : Text) : Bool → List Value → Output
  | _, [] => { text := [] }
  | started, .table entries :: rest =>
    Output.andThen { text := blankLine started } <| (writeOpening name true entries).andThen <|
      (writeSections name true entries).andThen (writeElements name true rest)
  | started, _ :: rest => writeElements name started rest

end

/-- A document. -/
def write (entries : Entries) : Output :=
  let opening := writeOpening [] false entries
  opening.andThen (writeSections [] (!opening.text.isEmpty) entries)

end Emend.Document
