import Emend.Text.Digit
import Emend.Text.Upper
import Emend.Text.Word

/-!
# Patterns

A pattern describes parts of a text. Most patterns consume characters; a `place` consumes none and
holds or fails where it stands, and so does a `look` at what follows or precedes. What is consumed
first is what a reader would try first: alternatives from left to right, and repetitions from the
most or from the fewest, as their `Effort` says.

How characters compare is decided pattern by pattern (`Casing`), because a part of a pattern can set
the case aside for itself.
-/

namespace Emend

/-- How the characters of a pattern and of a text compare. -/
inductive Casing where
  /-- Character by character. -/
  | exact
  /-- Without regard to the case of any script. -/
  | folded
  /-- Without regard to the case of ASCII letters. -/
  | asciiFolded
  deriving DecidableEq, Repr

/-- The kinds of characters with a name of their own. -/
inductive CharKind where
  | digit
  | space
  | word
  deriving DecidableEq, Repr

/-- White space among the ASCII characters. -/
def isAsciiSpace (c : Char) : Bool := c = ' ' || ('\t' ≤ c && c ≤ '\r')

/-- Whether a character is of a kind; `ascii` keeps to the ASCII characters of the kind. -/
def CharKind.holds (kind : CharKind) (ascii : Bool) (c : Char) : Bool :=
  match kind, ascii with
  | .digit, false => Text.isDecimal c
  | .digit, true => Text.isAsciiDigit c
  | .space, false => Text.isBlank c
  | .space, true => isAsciiSpace c
  | .word, false => Text.isWord c
  | .word, true => Text.isAsciiLetter c || Text.isAsciiDigit c || c = '_'

/-- The lower case of a character, as far as a way of comparing asks for it. -/
def Casing.lower : Casing → Char → Char
  | .exact, c => c
  | .folded, c => Text.lowerChar c
  | .asciiFolded, c => Text.lowerAscii c

/-- The code points that a way of comparing takes for a character. -/
def Casing.variants : Casing → Char → List Nat
  | .exact, c => [c.toNat]
  | .folded, c => Text.foldedVariants c
  | .asciiFolded, c => Text.asciiVariants c

/-- One member of a set of characters. -/
inductive SetItem where
  | code (n : Nat)
  | range (low high : Nat)
  | ofKind (kind : CharKind) (ascii : Bool) (negated : Bool)
  deriving DecidableEq, Repr

/-- The item that holds one character. -/
def SetItem.char (c : Char) : SetItem := .code c.toNat

/-- The number of code points of the basic plane, for which a set keeps all that compares equal. -/
def planeSize : Nat := 65536

/-- Whether a code point lies in a range. -/
def isWithin (low high n : Nat) : Bool := low ≤ n && n ≤ high

namespace SetItem

/-- Whether a character is a code point without regard to case. Beyond the basic plane the character
is taken in lower case and the code point as it is. -/
def foldedCode (casing : Casing) (c : Char) (n : Nat) : Bool :=
  if n < planeSize then (casing.variants c).contains n else (casing.lower c).toNat = n

/-- Whether a character lies in a range without regard to case. A range that ends beyond the basic
plane holds a character also if its lower case lies in the range, or the upper case of that. -/
def foldedRange (casing : Casing) (c : Char) (low high : Nat) : Bool :=
  if high < planeSize then (casing.variants c).any (isWithin low high)
  else
    let lower := (casing.lower c).toNat
    (casing.variants c).any (isWithin low (planeSize - 1)) ||
      isWithin low high lower || isWithin low high (Text.upperCode lower)

/-- Whether a character belongs to an item. -/
def holds (casing : Casing) (c : Char) : SetItem → Bool
  | code n => if casing = .exact then c.toNat = n else foldedCode casing c n
  | range low high =>
    if casing = .exact then isWithin low high c.toNat else foldedRange casing c low high
  | ofKind kind ascii negated => kind.holds ascii (casing.lower c) != negated

end SetItem

/-- A test of one character. -/
inductive CharTest where
  | any
  | notNewline
  | char (c : Char) (casing : Casing)
  | set (items : List SetItem) (negated : Bool) (casing : Casing)
  deriving DecidableEq, Repr

/-- Whether a character passes a test. -/
def CharTest.holds (c : Char) : CharTest → Bool
  | .any => true
  | .notNewline => c ≠ '\n'
  | .char d .exact => c = d
  | .char d .folded => Text.sameFolded c d
  | .char d .asciiFolded => Text.lowerAscii c = Text.lowerAscii d
  | .set items negated casing => items.any (SetItem.holds casing c) != negated

/-- A place in a text that consumes nothing. -/
inductive Anchor where
  | textStart
  | lineStart
  | textEnd
  /-- The end of the text, or before a newline that ends it. -/
  | lastLineEnd
  | lineEnd
  | wordEdge (ascii : Bool)
  | noWordEdge (ascii : Bool)
  deriving DecidableEq, Repr

/-- In which order the counts of a repetition are tried. -/
inductive Effort where
  | most
  | fewest
  /-- The most, without going back. -/
  | all
  deriving DecidableEq, Repr

/-- A pattern. -/
inductive Pattern where
  | empty
  | one (test : CharTest)
  | place (anchor : Anchor)
  | seq (first second : Pattern)
  | either (first second : Pattern)
  | group (index : Nat) (body : Pattern)
  /-- What a group matched, once more. -/
  | same (index : Nat) (casing : Casing)
  /-- The body is tried `back` characters before the place and is not consumed. -/
  | look (back : Nat) (negated : Bool) (body : Pattern)
  /-- The body in its first way to match only. -/
  | atomic (body : Pattern)
  | ifGroup (index : Nat) (yes no : Pattern)
  | times (least : Nat) (most : Option Nat) (effort : Effort) (body : Pattern)
  deriving DecidableEq, Repr

namespace Pattern

/-- Patterns one after the other. -/
def sequence : List Pattern → Pattern
  | [] => empty
  | [p] => p
  | p :: rest => seq p (sequence rest)

/-- The first pattern that fits. -/
def choice : List Pattern → Pattern
  | [] => empty
  | [p] => p
  | p :: rest => either p (choice rest)

/-- The parts of a pattern that follow one another. -/
def parts : Pattern → List Pattern
  | empty => []
  | seq first second => first.parts ++ second.parts
  | p => [p]

/-- The members of the set that a pattern of one character is, and how it compares. -/
def members? : Pattern → Option (List SetItem × Casing)
  | one (.char c casing) => some ([.char c], casing)
  | one (.set items false casing) => some (items, casing)
  | _ => none

/-- The set of the characters that one of some patterns fits, if each fits one character and all
compare alike. -/
def union? (list : List Pattern) : Option Pattern := do
  let sets ← list.mapM members?
  let (_, casing) ← sets.head?
  if sets.all (·.2 = casing) then some (one (.set (sets.flatMap (·.1)) false casing)) else none

/-- The parts that all of some lists start with, and what is left of each; the count bounds the
parts. -/
def sharedParts : Nat → List (List Pattern) → List Pattern × List (List Pattern)
  | 0, lists => ([], lists)
  | count + 1, lists =>
    match lists with
    | (first :: _) :: _ =>
      if lists.all (·.head? = some first) then
        let (shared, rest) := sharedParts count (lists.map (·.tail))
        (first :: shared, rest)
      else ([], lists)
    | _ => ([], lists)

/-- The first pattern that fits. What all start with stands before the choice, and a choice between
single characters is a set. -/
def firstOf (list : List Pattern) : Pattern :=
  let lists := list.map parts
  let (shared, rest) := sharedParts ((lists.map (·.length)).foldl max 0) lists
  let rest := rest.map sequence
  sequence (shared ++ [(union? rest).getD (choice rest)])

/-- The characters of a text, one after the other. -/
def literal (t : Text) : Pattern := sequence (t.map fun c => one (.char c .exact))

end Pattern

/-- A pattern with its groups: their number, and the names of some of them. -/
structure Expression where
  pattern : Pattern
  groups : Nat
  names : List (Text × Nat)
  deriving DecidableEq, Repr

end Emend
