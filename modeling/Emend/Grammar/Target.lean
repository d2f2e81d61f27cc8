import Emend.Grammar.Category

/-!
# Targets

What values are assigned to and what is deleted: a name, an attribute, an item, or several of them
in parentheses or brackets. A target that is assigned to may have a star.

One target with a star in parentheses is a tuple even without a comma, and then it is written with
one.
-/

namespace Emend.Grammar.Target

open Emend.Grammar.Parser

section

variable (bound : Nat) (rule : Rules)

/-- A name, an attribute or an item, without parentheses of its own. -/
def single : Parser Piece := do
  let piece ← rule .primary
  check (!piece.enclosed && piece.shape.isSingle)
  pure piece

/-- A target, which may have a star. -/
def starred : Parser Piece := do
  match ← token? (isSymbol "*") with
  | some star => (·.starred star.extent) <$> rule .target
  | none => rule .target

/-- Targets in parentheses, of which nothing is taken. -/
def inParentheses (item : Parser Piece) : Parser Piece := do
  let start ← symbol "("
  let close (p : Piece) : Parser Piece := do
    let stop ← symbol ")"
    check !(← isNext isTrailer)
    pure (p.parenthesised start.extent stop.extent)
  if ← isNext (isSymbol ")") then close { extent := start.extent, marks := [] }
  else
    let first ← item
    let (rest, closed) ← listed item bound
    if !rest.isEmpty || closed then close (first.tuple rest closed)
    else if first.shape.isStarred then
      add first.extent.stop [',']
      close (first.tuple [] true)
    else close first

/-- Targets in brackets, of which nothing is taken. -/
def inBrackets (item : Parser Piece) : Parser Piece := do
  let start ← symbol "["
  let close (marks : List Mark) : Parser Piece := do
    let stop ← symbol "]"
    check !(← isNext isTrailer)
    pure (.bracketed start.extent stop.extent marks)
  if ← isNext (isSymbol "]") then close []
  else
    let first ← item
    let (rest, _) ← listed item bound
    close (first.marks ++ rest.flatMap (·.marks))

/-- What can be assigned to, without a star of its own. -/
def assignable : Parser Piece :=
  inParentheses bound (starred rule) <|> inBrackets bound (starred rule) <|> single rule

/-- What can be deleted. -/
def deletable : Parser Piece :=
  inParentheses bound (rule .deletable) <|> inBrackets bound (rule .deletable) <|> single rule

/-- Targets with commas between them. -/
def listOf (item : Parser Piece) : Parser Piece := do
  let first ← item
  let (rest, closed) ← listed item bound
  if rest.isEmpty && !closed then pure first else pure (first.tuple rest closed)

/-- Targets of an assignment with commas between them. -/
def targets : Parser Piece := listOf bound (starred rule)

/-- One name, attribute or item, in parentheses or not. -/
def one : Parser Piece := do
  let piece ← rule .target
  check piece.shape.isSingle
  pure piece

end

end Emend.Grammar.Target
