import Emend.Grammar.Expression

/-!
# Case patterns

The patterns of a case. A pattern is kept by its marks. The wildcard is no name, and a name that a
pattern binds is not the wildcard. A pattern that starts with the wildcard is the wildcard.
-/

namespace Emend.Grammar.CasePattern

open Emend.Grammar.Parser

/-- The wildcard. -/
def isWildcard (t : Token) : Bool := isWord "_" t

/-- A name that a pattern binds. -/
def capture : Parser (List Mark) := do
  let t ← nameWhere fun t => !isWildcard t
  pure [.name t.extent]

/-- A name that a star binds, or the wildcard. -/
def starred : Parser (List Mark) := do
  let _ ← symbol "*"
  if ← taken isWildcard then pure [] else capture

/-- Whether a number is imaginary. -/
def isImaginary (t : Token) : Bool := t.text.getLast?.any fun c => c = 'j' || c = 'J'

/-- A token that is the sign of a number. -/
def isSign (t : Token) : Bool := isSymbol "-" t || isSymbol "+" t

/-- A number with its sign, or the sum of a real and an imaginary number. -/
def number : Parser (List Mark) := do
  let _ ← taken isSign
  let real ← isNext fun t => t.kind = .number && !isImaginary t
  let first ← Literal.number
  if ← taken isSign then
    check real
    let _ ← satisfy fun t => t.kind = .number && isImaginary t
    pure first.marks
  else pure first.marks

/-- A constant. -/
def constant : Parser (List Mark) := do
  let t ← satisfy isConstant
  pure [.name t.extent]

/-- The key of a mapping: a literal, a constant, or a dotted name. -/
def key (bound : Nat) (field : Parser Piece) : Parser (List Mark) :=
  number <|> constant <|> ((·.marks) <$> Literal.strings bound field) <|> do
    let piece ← dottedName bound
    check (piece.shape = .location)
    pure piece.marks

section

variable (bound : Nat) (field : Parser Piece) (pattern : Parser (List Mark))

/-- A pattern that may have a star; whether it does. -/
def element : Parser (List Mark × Bool) :=
  ((·, true) <$> starred) <|> ((·, false) <$> pattern)

/-- Elements with commas between them; whether they are more than one pattern in parentheses. -/
def elements : Parser (List Mark × Bool) := do
  let (first, star) ← element pattern
  let (rest, closed) ← listed (element pattern) bound
  let sequence := closed || !rest.isEmpty
  check (sequence || !star)
  pure (first ++ rest.flatMap (·.1), sequence)

/-- The entries of a mapping, up to its closing brace, which stays. Of the gap between two stars and
their name only the part on the line of the stars is written. -/
def entries : Nat → Parser (List Mark)
  | 0 => failure
  | rounds + 1 => do
    if ← isNext (isSymbol "\x7d") then pure []
    else if ← taken (isSymbol "**") then
      loseBroken
      let rest ← capture
      let _ ← taken (isSymbol ",")
      pure rest
    else
      let first ← key bound field
      let _ ← symbol ":"
      let value ← pattern
      if ← taken (isSymbol ",") then
        let rest ← entries rounds
        pure (first ++ value ++ rest)
      else pure (first ++ value)

/-- The patterns by name in a class pattern, up to its closing parenthesis, which stays. -/
def namedParts : Nat → Parser (List Mark)
  | 0 => failure
  | rounds + 1 => do
    if ← isNext (isSymbol ")") then pure []
    else
      let mark ← nameMark
      let _ ← symbol "="
      let value ← pattern
      let rest ← if ← taken (isSymbol ",") then namedParts rounds else pure []
      pure (mark :: value ++ rest)

/-- The patterns in a class pattern, up to its closing parenthesis, which stays. Those by name come
after those by position; the wildcard after one by position is no name. -/
def parts : Nat → Bool → Parser (List Mark)
  | 0, _ => failure
  | rounds + 1, first => do
    if ← isNext (isSymbol ")") then pure []
    else if (← Expression.startsKeyword) && (first || !(← isNext isWildcard)) then
      namedParts pattern (rounds + 1)
    else
      let value ← pattern
      let rest ← if ← taken (isSymbol ",") then parts rounds false else pure []
      pure (value ++ rest)

/-- A pattern that needs no parentheses. -/
def closed : Parser (List Mark) := do
  match ← peek? with
  | none => failure
  | some t =>
    match t.kind with
    | .number => number
    | .string | .formatOpen => (·.marks) <$> Literal.strings bound field
    | .word =>
      if isConstant t then constant
      else if ← taken isWildcard then pure []
      else
        let piece ← dottedName bound
        if ← taken (isSymbol "(") then
          let inner ← parts pattern bound true
          let _ ← symbol ")"
          pure (piece.marks ++ inner)
        else pure piece.marks
    | .symbol =>
      if isSign t then number
      else
        let _ ← next
        if isSymbol "(" t then
          if ← taken (isSymbol ")") then pure []
          else
            let (marks, _) ← elements bound pattern
            let _ ← symbol ")"
            pure marks
        else if isSymbol "[" t then
          if ← taken (isSymbol "]") then pure []
          else
            let first ← element pattern
            let (rest, _) ← listed (element pattern) bound
            let _ ← symbol "]"
            pure (first.1 ++ rest.flatMap (·.1))
        else if isSymbol "\x7b" t then
          let marks ← entries bound field pattern bound
          let _ ← symbol "\x7d"
          pure marks
        else failure
    | _ => failure

/-- Patterns with bars between them, and the name of what they match. -/
def whole : Parser (List Mark) := do
  let first ← closed bound field pattern
  let rest ← many (symbol "|" *> closed bound field pattern) bound
  let name ← option (word "as" *> capture)
  pure (first ++ rest.flatten ++ name.getD [])

end

/-- Parse a pattern with at most so much nesting. -/
def parse (field : Parser Piece) : Nat → Parser (List Mark)
  | 0 => failure
  | depth + 1 => whole depth field (parse field depth)

/-- The pattern of a case: one, or a sequence without brackets. -/
def top (field : Parser Piece) (depth : Nat) : Parser (List Mark) :=
  (·.1) <$> elements depth (parse field depth)

end Emend.Grammar.CasePattern
