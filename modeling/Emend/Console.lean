import Emend.Fragment
import Emend.Text.Lines
import Emend.Text.Quoted

/-!
# The console

A console has lines of input still to read, and what has been written to its two outputs. A line of
input is a text with its end, or the interruption of reading.

Asking for an answer reads lines until one is acceptable: a blank line takes the default, a line
that is none of the choices is answered by an error, and the end of input or an interruption quits.
-/

namespace Emend

/-- A line of input. -/
inductive InputLine where
  | text (t : Text)
  | interrupt
  deriving DecidableEq, Repr

/-- What a console is capable of. -/
structure Screen where
  ansi : Bool := false
  errorAnsi : Bool := false
  clears : Bool := true
  rows : Nat := 24
  deriving DecidableEq, Repr

/-- A console: what it can do, the input still to read and the outputs so far. -/
structure Console where
  screen : Screen := {}
  input : List InputLine := []
  output : Text := []
  errors : Text := []
  deriving DecidableEq, Repr

namespace InputLine

/-- The lines of a text, each with its newline; `line` holds the current one, last character
first. -/
def linesFrom : Text → Text → List Text
  | [], [] => []
  | line, [] => [line.reverse]
  | line, c :: rest =>
    if c = '\n' then (c :: line).reverse :: linesFrom [] rest else linesFrom (c :: line) rest

/-- A line without the carriage returns and newlines that end it. -/
def stripped (t : Text) : Text := t.trimRight fun c => c = '\r' || c = '\n'

/-- The input lines of a text, whatever ends them. -/
def ofText (t : Text) : List InputLine := (linesFrom [] t.unifyLineEnds).map .text

/-- The input lines of a keyboard, where a line of the end-of-text character interrupts. -/
def ofKeys (t : Text) : List InputLine :=
  (linesFrom [] t).map fun line => if stripped line = ['\x03'] then .interrupt else .text line

end InputLine

namespace Console

/-- Write text to the output. -/
def write (c : Console) (t : Text) : Console := { c with output := c.output ++ t }

/-- Write a line to the output. -/
def writeLine (c : Console) (t : Text) : Console := c.write (t ++ ['\n'])

/-- Write text to the error output. -/
def writeErrors (c : Console) (t : Text) : Console := { c with errors := c.errors ++ t }

/-- Write a line to the error output. -/
def writeErrorLine (c : Console) (t : Text) : Console := c.writeErrors (t ++ ['\n'])

/-- Write fragments to the output. -/
def writeFragments (c : Console) (fragments : List Fragment) : Console :=
  c.write (Fragment.render c.screen.ansi fragments)

/-- Clear the screen, if it can and should be cleared. -/
def clear (c : Console) : Console :=
  if c.screen.ansi && c.screen.clears then c.write "\x1b[2J\x1b[H".toList else c

/-- The choices in the words of an error. -/
def refusal (choices : Text) (answer : Text) : Text :=
  let distinct := choices.eraseDups.map fun c => Text.quoted [c]
  let expected := match distinct with
    | [only] => "is not ".toList ++ only
    | all => "is not one of ".toList ++ Text.joinWith ", ".toList all
  "Error: Invalid value: ".toList ++ answer.quoted ++ ' ' :: expected ++ ['.']

/-- The answer that lines of input give to a question, with the lines left and what was written on
the way. -/
def answerFrom (choices default : Text) : List InputLine → Text → Text × List InputLine × Text
  | [], written => (['q'], [], written)
  | .interrupt :: rest, written => (['q'], rest, written ++ ['\n'])
  | .text line :: rest, written =>
    match InputLine.stripped line with
    | [] => (default, rest, written)
    | [c] =>
      if choices.contains c then ([c], rest, written)
      else answerFrom choices default rest (written ++ refusal choices [c] ++ ['\n'])
    | answer => answerFrom choices default rest (written ++ refusal choices answer ++ ['\n'])

/-- Ask for one of the choices. -/
def prompt (c : Console) (choices default : Text) : Text × Console :=
  let (answer, rest, written) := answerFrom choices default c.input []
  (answer, { c.write written with input := rest })

end Console

end Emend
