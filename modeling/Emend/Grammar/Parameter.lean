import Emend.Grammar.Parser

/-!
# Parameters

The parameters of a function. They come in order: those given by position only up to a slash, those
given by position or by name, a star with or without a name, those given by name only, and last one
with two stars. Before the star, a parameter without a default does not follow one with a default. A
star without a name is followed by a parameter.

The parameters before a slash are the last to be built, so their faults come after all others.
-/

namespace Emend.Grammar.Parameter

open Emend.Grammar.Parser

/-- How far a list of parameters has come. -/
inductive Phase where
  | start
  | beforeSlash
  | afterSlash
  /-- After a star without a name. -/
  | bareStar
  | byName
  | closed
  deriving DecidableEq, Repr

/-- The state of a list of parameters. -/
structure State where
  phase : Phase := .start
  /-- Whether a default was seen. -/
  defaulted : Bool := false
  /-- The first fault of the parameters before the slash. -/
  early : Option NodeFault := none
  /-- The first fault of the other parameters. -/
  fault : Option NodeFault := none

/-- What a list of parameters is made of. -/
structure Rules where
  /-- A default. -/
  default : Parser Piece
  /-- An annotation after its colon; none where parameters take none. -/
  ascription : Option (Parser Piece)
  /-- The annotation of the parameter with one star. -/
  starAscription : Option (Parser Piece)
  /-- Whether the function has no name. -/
  anonymous : Bool

/-- A name with its annotation. -/
def named (r : Rules) (ascription : Option (Parser Piece)) : Parser (List Mark) := do
  let t ← name
  let note ←
    match ascription with
    | some p => option (symbol ":" *> p)
    | none => pure none
  let marks : List Mark := (note.map (·.marks)).getD []
  pure ([.parameter t.extent note.isSome r.anonymous, .name t.extent] ++ marks)

/-- One item of the list. -/
def item (r : Rules) (s : State) : Parser (List Mark × State) := do
  if ← taken (isSymbol "/") then
    check (s.phase = .beforeSlash)
    pure ([], { s with phase := .afterSlash, early := s.fault, fault := none })
  else if ← taken (isSymbol "*") then
    check (s.phase = .start || s.phase = .beforeSlash || s.phase = .afterSlash)
    if ← isNext isName then
      let marks ← named r r.starAscription
      pure (marks, { s with phase := .byName })
    else pure ([], { s with phase := .bareStar })
  else if ← taken (isSymbol "**") then
    check (s.phase ≠ .bareStar && s.phase ≠ .closed)
    let marks ← named r r.ascription
    pure (marks, { s with phase := .closed })
  else
    let marks ← named r r.ascription
    let value ← option (symbol "=" *> r.default)
    let marks := marks ++ (value.map (·.marks)).getD []
    match s.phase with
    | .closed => failure
    | .bareStar | .byName => pure (marks, { s with phase := .byName })
    | .start | .beforeSlash =>
      check (!s.defaulted || value.isSome)
      pure (marks, { s with phase := .beforeSlash, defaulted := value.isSome })
    | .afterSlash =>
      check (!s.defaulted || value.isSome)
      pure (marks, { s with defaulted := value.isSome })

/-- Items up to the closing token, which stays; the state after them. -/
def items (r : Rules) (isEnd : Token → Bool) : Nat → State → Parser (List Mark × State)
  | 0, _ => failure
  | bound + 1, s => do
    if ← isNext isEnd then
      check (s.phase ≠ .bareStar)
      pure ([], s)
    else
      let ((marks, s), fault) ← apart (item r s)
      let s := { s with fault := s.fault.or fault }
      if ← taken (isSymbol ",") then
        let (rest, s) ← items r isEnd bound s
        pure (marks ++ rest, s)
      else
        check (s.phase ≠ .bareStar)
        check (← isNext isEnd)
        pure (marks, s)

/-- The list up to its closing token, which stays. -/
def list (r : Rules) (isEnd : Token → Bool) (bound : Nat) : Parser (List Mark) := do
  let (marks, s) ← items r isEnd bound {}
  report? (s.fault.or s.early)
  pure marks

end Emend.Grammar.Parameter
