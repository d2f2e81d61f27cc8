import Emend.Grammar.Parser
import Emend.Grammar.Scan

/-!
# Literals

Numbers and strings. Strings that follow one another are one value; text and bytes do not go
together, and the last of them is no template. The fields of a formatted string hold expressions, so
the rule for a field is a parameter.
-/

namespace Emend.Grammar.Literal

open Emend.Grammar.Parser

/-- A number. A keyword may stand right after it, but not right before it. -/
def number : Parser Piece := do
  let t ← ofKind .number
  if Scan.isZeroFirstWhole t.text then report .badInteger
  pure
    { extent := t.extent
      marks := if Scan.isWhole t.text then [.integer t.extent] else []
      after := .free }

/-- One of some strings that follow one another. -/
structure Part where
  piece : Piece
  bytes : Bool := false
  template : Bool := false

/-- The letters before the quotes of a string. -/
def letters (t : Text) : Text := t.takeWhile fun c => c ≠ '\'' && c ≠ '"'

/-- Whether a letter is among those before the quotes of a string, whatever its case. -/
def hasLetter (letter : Char) (t : Text) : Bool :=
  (letters t).any fun c => Text.lowerAscii c = letter

/-- A string that is not formatted. A keyword may stand right after it, and right before it unless
it starts with letters. -/
def plainString : Parser Part := do
  let t ← ofKind .string
  pure
    { piece :=
        { extent := t.extent
          marks := [.string t.extent]
          before := if (letters t.text).isEmpty then .free else .spaced
          after := .free }
      bytes := hasLetter 'b' t.text }

/-- Pieces of text and fields. -/
def formatParts (bound : Nat) (field : Parser Piece) : Parser (List Mark) := do
  let skipped : Parser (List Mark) := do
    let _ ← ofKind .formatText
    pure []
  let held : Parser (List Mark) := do
    let _ ← symbol "\x7b"
    let piece ← field
    pure piece.marks
  let parts ← many (skipped <|> held) bound
  pure parts.flatten

/-- A formatted string; it is never one of bytes. -/
def formatted (bound : Nat) (field : Parser Piece) : Parser Part := do
  let first ← ofKind .formatOpen
  let marks ← formatParts bound field
  let last ← ofKind .formatClose
  pure
    { piece := { extent := first.extent.through last.extent, marks, after := .free }
      template := hasLetter 't' first.text }

/-- Whether text and bytes follow one another. -/
def isMixed : List Bool → Bool
  | a :: b :: rest => a != b || isMixed (b :: rest)
  | _ => false

/-- The fault of strings that follow one another. The last pair is looked at first. -/
def fault? (first : Part) (rest : List Part) : Option NodeFault :=
  if rest.getLast?.any (·.template) then some .templateLast
  else if isMixed ((first :: rest).map (·.bytes)) then some .mixedLiterals
  else none

/-- Strings that follow one another. -/
def strings (bound : Nat) (field : Parser Piece) : Parser Piece := do
  let one := plainString <|> formatted bound field
  let first ← one
  let rest ← many one bound
  report? (fault? first rest)
  pure (first.piece.merge (rest.map (·.piece)))

/-- The conversions that a field can ask for. -/
def conversions : List Text := ["s", "r", "a"].map String.toList

/-- The conversion of a field, if it has one. The gaps before and after its letter are not
written. -/
def conversion : Parser Unit := do
  if ← taken (isSymbol "!") then
    loseGap
    let _ ← satisfy fun t => t.kind = .word && conversions.contains t.text
    loseGap

/-- A field after its opening brace, up to and including its closing brace. -/
def field (bound : Nat) (value nested : Parser Piece) : Parser Piece := do
  let value ← value
  let _ ← taken (isSymbol "=")
  conversion
  let marks ← if ← taken (isSymbol ":") then formatParts bound nested else pure []
  let last ← symbol "\x7d"
  pure { extent := value.extent.through last.extent, marks := value.marks ++ marks }

end Emend.Grammar.Literal
