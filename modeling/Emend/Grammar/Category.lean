import Emend.Grammar.Parser

/-!
# Categories

The rules of the grammar that refer back to one another, by name. Each rule is written as a function
of all of them, and `Emend.Grammar.Expression.parse` ties the knot for a depth of nesting.
-/

namespace Emend.Grammar

/-- The rules that expressions refer back to. -/
inductive Category where
  /-- A value without a comma: a choice, a function without a name, or an operation. -/
  | expression
  /-- A value that may be given a name. -/
  | named
  /-- An operation, but no choice. -/
  | disjunction
  /-- An operation without comparisons. -/
  | sum
  /-- An atom with what is taken of it. -/
  | primary
  /-- Values with commas between them, with or without stars. -/
  | values
  /-- What may stand to the right of an assignment. -/
  | value
  /-- A field of a formatted string after its opening brace. -/
  | field
  /-- What can be assigned to, without a star of its own. -/
  | target
  /-- What can be deleted. -/
  | deletable
  deriving DecidableEq, Repr

/-- The rules, by category. -/
abbrev Rules := Category → Parser Piece

end Emend.Grammar
