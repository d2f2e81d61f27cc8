import Emend.Text.Class

/-!
# Fragments

Text in pieces, each with the name of the style it is to be shown in. A plain display writes the
pieces one after the other. An escape-sequence display announces each change of attributes, and
keeps the text from carrying sequences of its own: carriage returns are dropped, line ends become
carriage return and line feed, and escape characters become question marks.
-/

namespace Emend

/-- A piece of text and the name of its style. -/
structure Fragment where
  style : String
  text : Text
  deriving DecidableEq, Repr

namespace Fragment

/-- The mark of a style whose text is an escape sequence and takes no room. -/
def zeroWidth : String := "[ZeroWidthEscape]"

/-- A fragment that only a display of escape sequences writes. -/
def isZeroWidth (f : Fragment) : Bool := Text.hasPart f.style.toList zeroWidth.toList

/-- The texts of the fragments in a row, without those that take no room. -/
def plain (fragments : List Fragment) : Text :=
  (fragments.filter fun f => !f.isZeroWidth).flatMap (·.text)

/-- The attributes of a style; a style without a rule has the default ones. -/
def attributes (style : String) : String :=
  match style with
  | "class:header" => "0;1"
  | "class:prompt" => "0;1"
  | "class:lineno" => "0;34"
  | "class:highlight" => "0;33;1"
  | "class:removed" => "0;31"
  | "class:added" => "0;32"
  | "class:omitted" => "0;90;3"
  | "class:level-debug" => "0;90"
  | "class:level-warning" => "0;33"
  | "class:level-error" => "0;31"
  | "class:level-critical" => "0;31;1"
  | _ => "0"

/-- The sequence that sets attributes. -/
def sequence (attributes : String) : Text := '\x1b' :: '[' :: attributes.toList ++ ['m']

/-- One character as a display of escape sequences shows it. -/
def shown (c : Char) : Text :=
  if c = '\r' then []
  else if c = '\n' then ['\r', '\n']
  else if c = '\x1b' then ['?']
  else [c]

/-- The fragments from the one after attributes `current` on. -/
def sequencesAfter : Option String → List Fragment → Text
  | _, [] => []
  | current, f :: rest =>
    let wanted := attributes f.style
    let change := if current = some wanted then [] else sequence wanted
    let body := if f.isZeroWidth then f.text else f.text.flatMap shown
    change ++ body ++ sequencesAfter (some wanted) rest

/-- The fragments with escape sequences: attributes are reset and line wrapping is switched on
before, and a last empty fragment brings the default attributes back. -/
def escaped (fragments : List Fragment) : Text :=
  sequence "0" ++ "\x1b[?7h".toList ++ sequencesAfter none (fragments ++ [⟨"", []⟩]) ++ sequence "0"

/-- The fragments as a display with or without escape sequences shows them. -/
def render (ansi : Bool) (fragments : List Fragment) : Text :=
  if ansi then escaped fragments else plain fragments

end Fragment

end Emend
