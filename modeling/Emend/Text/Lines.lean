import Emend.Text.Class

/-!
# Lines of a text

Two ways to cut a text into lines. `splitNewlines` cuts at each newline character and keeps what is
between, so there is always one line more than there are newlines; it is the rule of the line index.
`displayLines` cuts after every line-breaking character of any kind, counts a carriage return with
the newline after it once, and yields no line after a final break; it is the rule for showing a
block of text line by line.
-/

namespace Emend.Text

/-- The pieces between newline characters; never empty. -/
def splitNewlines : Text → List Text
  | [] => [[]]
  | c :: rest =>
    if c = '\n' then [] :: splitNewlines rest
    else match splitNewlines rest with
      | [] => [[c]]
      | line :: lines => (c :: line) :: lines

/-- A character that ends a displayed line. -/
def isLineBreak (c : Char) : Bool :=
  c = '\n' || c = '\r' || c = '\x0b' || c = '\x0c' || c = '\x1c' || c = '\x1d' || c = '\x1e' ||
    c = '\u0085' || c = '\u2028' || c = '\u2029'

/-- Displayed lines of a text, where `line` holds the characters of the current line, last first. -/
def displayFrom : Text → Text → List Text
  | [], [] => []
  | line, [] => [line.reverse]
  | line, '\r' :: '\n' :: rest => line.reverse :: displayFrom [] rest
  | line, c :: rest =>
    if isLineBreak c then line.reverse :: displayFrom [] rest
    else displayFrom (c :: line) rest

/-- The lines a block of text is shown as, without their ends. -/
def displayLines (t : Text) : List Text := displayFrom [] t

/-- A text in which a newline ends every line that a carriage return ended, with a newline or
without. -/
def unifyLineEnds : Text → Text
  | [] => []
  | '\r' :: '\n' :: rest => '\n' :: unifyLineEnds rest
  | c :: rest => (if c = '\r' then '\n' else c) :: unifyLineEnds rest

/-- A text in which a carriage return before a newline is left out. -/
def joinLineEnds : Text → Text
  | [] => []
  | '\r' :: '\n' :: rest => '\n' :: joinLineEnds rest
  | c :: rest => c :: joinLineEnds rest

end Emend.Text
