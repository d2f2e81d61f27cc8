import Emend.Text.Class

/-!
# Tokens

The tokens of a Python module. A token knows its stretch of the text and the gap before it: the
blanks, continued lines and comments that part it from the token before on the same logical line.
-/

namespace Emend.Grammar

/-- A stretch of a text, by offsets. -/
structure Extent where
  start : Nat
  stop : Nat
  deriving DecidableEq, Repr

namespace Extent

/-- From the start of one stretch to the end of another. -/
def through (a b : Extent) : Extent := ⟨a.start, b.stop⟩

/-- Whether one stretch ends where another starts. -/
def touches (a b : Extent) : Bool := a.stop = b.start

end Extent

/-- The kinds of tokens. -/
inductive TokenKind where
  /-- An identifier or a keyword. -/
  | word
  | number
  | string
  | symbol
  /-- The end of a logical line. -/
  | newline
  | indent
  | dedent
  /-- The opening of a formatted string, a piece of its text, and its closing. -/
  | formatOpen
  | formatText
  | formatClose
  deriving DecidableEq, Repr

/-- A token. -/
structure Token where
  kind : TokenKind
  text : Text
  extent : Extent
  gap : Text := []
  deriving DecidableEq, Repr

namespace Token

/-- The part of a gap that is on the token's own line or on lines continued by a backslash. -/
def plainGap : Text → Text
  | [] => []
  | '\\' :: '\r' :: '\n' :: rest => '\\' :: '\r' :: '\n' :: plainGap rest
  | '\\' :: c :: rest => '\\' :: c :: plainGap rest
  | c :: rest =>
    if c = '#' || c = '\n' || c = '\r' then [] else c :: plainGap rest

/-- Whether a line ends in the gap before the token without a backslash. -/
def isBroken (t : Token) : Bool := (plainGap t.gap).length < t.gap.length

/-- The stretch of the gap. -/
def gapExtent (t : Token) : Extent := ⟨t.extent.start - t.gap.length, t.extent.start⟩

/-- The stretch of the gap from its first comment or end of line on. -/
def brokenExtent (t : Token) : Extent :=
  ⟨t.extent.start - t.gap.length + (plainGap t.gap).length, t.extent.start⟩

end Token

end Emend.Grammar
