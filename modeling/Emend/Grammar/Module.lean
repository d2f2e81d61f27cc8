import Emend.Grammar.Lexer
import Emend.Grammar.Statement

/-!
# Modules

What is kept of a Python module: the marks of its syntax tree, the first fault among the tree's
nodes, and where each offset of the text stands in the written form of the tree.
-/

namespace Emend.Grammar

/-- A module. -/
structure Module where
  marks : List Mark
  fault : Option NodeFault
  places : Array Place

namespace Module

/-- The module with some tokens, of which all have to be read. -/
def parse? (tokens : List Token) : Option (List Mark × Cursor) :=
  let bound := 4 * tokens.length + 16
  let rule := Expression.parse bound
  let statement := Statement.statement bound rule (Statement.blockAt bound rule bound)
  match Parser.many statement bound { tokens } with
  | some (marks, cursor) => if cursor.tokens.isEmpty then some (marks.flatten, cursor) else none
  | none => none

/-- The module that a text is, if it is one. -/
def read? (t : Text) : Option Module := do
  let (tokens, margins) ← tokens? t
  let (marks, cursor) ← parse? tokens
  some
    { marks
      fault := cursor.fault
      places := Grammar.places t (margins ++ cursor.rewordings) }

/-- The place of an offset of the module's text. -/
def place (m : Module) (offset : Nat) : Place := m.places.getD offset ⟨0, 0⟩

end Module

end Emend.Grammar
