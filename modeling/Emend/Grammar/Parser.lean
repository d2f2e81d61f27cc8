import Emend.Fault
import Emend.Grammar.Mark
import Emend.Grammar.Written
import Emend.Text.Identifier

/-!
# Parsers

A parser takes a value from the front of the tokens or refuses them. Choice is ordered: the second
parser is tried where the first one refuses. A loop runs for a number of rounds that is given to it;
a bound that is no less than the number of tokens never ends a loop early, since every round takes a
token.

Besides the tokens a parser keeps what of the text is written otherwise, and the first fault among
the nodes that it has built. A fault does not stop a parser: a text that the grammar refuses has no
nodes, so it has no fault either. What a refused parser has noted is forgotten.
-/

namespace Emend.Grammar

/-- The state of a parser. -/
structure Cursor where
  tokens : List Token
  rewordings : List Rewording := []
  fault : Option NodeFault := none
  deriving Repr

/-- A parser. -/
abbrev Parser := StateT Cursor Option

namespace Parser

/-- The next token, which stays. -/
def peek? : Parser (Option Token) := fun c => some (c.tokens.head?, c)

/-- The next token if it passes a test. -/
def satisfy (test : Token → Bool) : Parser Token := fun c =>
  match c.tokens with
  | [] => none
  | t :: ts => if test t then some (t, { c with tokens := ts }) else none

/-- The next token. -/
def next : Parser Token := satisfy fun _ => true

/-- Whether the next token passes a test; it stays. -/
def isNext (test : Token → Bool) : Parser Bool := fun c => some (c.tokens.head?.any test, c)

/-- Whether the next two tokens pass a test each; they stay. -/
def areNext (first second : Token → Bool) : Parser Bool := fun c =>
  match c.tokens with
  | a :: b :: _ => some (first a && second b, c)
  | _ => some (false, c)

/-- The next token if it passes a test, or none. -/
def token? (test : Token → Bool) : Parser (Option Token) := fun c =>
  match c.tokens with
  | [] => some (none, c)
  | t :: ts => if test t then some (some t, { c with tokens := ts }) else some (none, c)

/-- Take the next token if it passes a test, and say whether it did. -/
def taken (test : Token → Bool) : Parser Bool := (·.isSome) <$> token? test

/-- Refuse unless a condition holds. -/
def check (condition : Bool) : Parser Unit := if condition then pure () else failure

/-- Note a fault, unless one was noted before. -/
def report (fault : NodeFault) : Parser Unit :=
  modify fun c => { c with fault := c.fault.or (some fault) }

/-- Note a fault if there is one. -/
def report? : Option NodeFault → Parser Unit
  | some fault => report fault
  | none => pure ()

/-- The value of a parser with the fault that it notes, which is set aside. -/
def apart {α : Type} (p : Parser α) : Parser (α × Option NodeFault) := fun c =>
  match p { c with fault := none } with
  | some (a, d) => some ((a, d.fault), { d with fault := c.fault })
  | none => none

/-- Note that a stretch is not written. -/
def lose (extent : Extent) : Parser Unit :=
  if extent.start < extent.stop then
    modify fun c => { c with rewordings := .lost extent :: c.rewordings }
  else pure ()

/-- Note that the gap before the next token is not written from its first comment or end of line
on. -/
def loseBroken : Parser Unit := do
  match ← peek? with
  | some t => lose t.brokenExtent
  | none => pure ()

/-- Note that the gap before the next token is not written. -/
def loseGap : Parser Unit := do
  match ← peek? with
  | some t => lose t.gapExtent
  | none => pure ()

/-- Note that a text is written besides. -/
def add (offset : Nat) (text : Text) : Parser Unit :=
  modify fun c => { c with rewordings := .added offset text :: c.rewordings }

/-- Note a fault where a keyword and an expression touch that a blank has to part. -/
def parted (left right : Extent) (contact : Contact) (place : Crowding) : Parser Unit :=
  if left.touches right then
    match contact with
    | .free => pure ()
    | .spaced => report (.crowded place)
    | .undecided => report .undecided
  else pure ()

/-- The space between a keyword and the expression after it. -/
def partedAfter (keyword : Token) (p : Piece) (place : Crowding) : Parser Unit :=
  parted keyword.extent p.extent p.before place

/-- The space between a keyword and the expression before it. -/
def partedBefore (p : Piece) (keyword : Token) (place : Crowding) : Parser Unit :=
  parted p.extent keyword.extent p.after place

/-- A token that is a given symbol. -/
def isSymbol (s : String) (t : Token) : Bool := t.kind = .symbol && t.text = s.toList

/-- A token that is a given word. -/
def isWord (s : String) (t : Token) : Bool := t.kind = .word && t.text = s.toList

/-- A given symbol. -/
def symbol (s : String) : Parser Token := satisfy (isSymbol s)

/-- A given word. -/
def word (s : String) : Parser Token := satisfy (isWord s)

/-- A token of a given kind. -/
def ofKind (kind : TokenKind) : Parser Token := satisfy fun t => t.kind = kind

/-- As many as there are. -/
def many {α : Type} (p : Parser α) : Nat → Parser (List α) :=
  fun bound => go bound []
where
  /-- The loop; the values so far are kept last first. -/
  go : Nat → List α → Parser (List α)
    | 0, found, c => some (found.reverse, c)
    | bound + 1, found, c =>
      match p c with
      | none => some (found.reverse, c)
      | some (a, c) => go bound (a :: found) c

/-- A value, if there is one. -/
def option {α : Type} (p : Parser α) : Parser (Option α) := fun c =>
  match p c with
  | none => some (none, c)
  | some (a, c) => some (some a, c)

/-- Values with commas between them, and at the end if the last is followed by one. -/
def listed {α : Type} (p : Parser α) (bound : Nat) : Parser (List α × Bool) := do
  let rest ← many (symbol "," *> p) bound
  let closed ← taken (isSymbol ",")
  pure (rest, closed)

/-- The words that are no names. -/
def keywords : List Text :=
  ["False", "None", "True", "and", "as", "assert", "async", "await", "break", "class", "continue",
    "def", "del", "elif", "else", "except", "finally", "for", "from", "global", "if", "import",
    "in", "is", "lambda", "nonlocal", "not", "or", "pass", "raise", "return", "try", "while",
    "with", "yield"].map String.toList

/-- A token that is a name. -/
def isName (t : Token) : Bool := t.kind = .word && !keywords.contains t.text

/-- A name that passes a test. Its characters have to be those of an identifier. -/
def nameWhere (test : Token → Bool) : Parser Token := do
  let t ← satisfy fun t => isName t && test t
  if Text.isIdentifier t.text then pure t
  else do
    report (.notIdentifier t.text)
    pure t

/-- A name. -/
def name : Parser Token := nameWhere fun _ => true

/-- The mark of a name. -/
def nameMark : Parser Mark := do
  let t ← name
  pure (.name t.extent)

/-- The words that are names of constants. -/
def constants : List Text := ["True", "False", "None"].map String.toList

/-- A token that is a constant. -/
def isConstant (t : Token) : Bool := t.kind = .word && constants.contains t.text

/-- Whether a token starts something that is taken of a value. -/
def isTrailer (t : Token) : Bool := isSymbol "." t || isSymbol "(" t || isSymbol "[" t

/-- A name, then any number of attributes of it. -/
def dottedName (bound : Nat) : Parser Piece := do
  let first ← name
  let rest ← many (symbol "." *> name) bound
  pure <| rest.foldl
    (fun whole t =>
      let extent := whole.extent.through t.extent
      { extent, marks := .member extent :: whole.marks ++ [.name t.extent], shape := .location })
    { extent := first.extent, marks := [.name first.extent], shape := .name first.extent }

end Parser

end Emend.Grammar
