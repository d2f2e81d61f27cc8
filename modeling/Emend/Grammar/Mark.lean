import Emend.Grammar.Token

/-!
# Marks

What is kept of a syntax tree: the nodes that a suggestor can ask for, each with its stretch of the
text, in the order in which a walk meets them, a parent before its children. A node's stretch leaves
out the node's own parentheses.

Of an expression the parser also needs to know what it can be used as, and whether a keyword may
stand right next to it.
-/

namespace Emend.Grammar

/-- A node of a syntax tree. -/
inductive Mark where
  | name (extent : Extent)
  /-- A whole number. -/
  | integer (extent : Extent)
  /-- A string that is not formatted. -/
  | string (extent : Extent)
  /-- A call; `callee` is the name that is called, if it is a name. -/
  | call (extent : Extent) (callee : Option Extent)
  /-- A name taken of a value. -/
  | member (extent : Extent)
  /-- A parameter by its name: whether it has an annotation, and whether it is that of a function
  without a name. -/
  | parameter (name : Extent) (annotated anonymous : Bool)
  deriving DecidableEq, Repr

/-- Whether a keyword may stand right next to one end of an expression. -/
inductive Contact where
  | free
  /-- A blank has to part them. -/
  | spaced
  /-- The question itself is a fault. -/
  | undecided
  deriving DecidableEq, Repr

/-- What an expression is, as far as the grammar asks. -/
inductive Shape where
  /-- Only a value. -/
  | value
  /-- A name; its stretch leaves out parentheses. -/
  | name (extent : Extent)
  /-- An attribute or an item. -/
  | location
  /-- An expression with a star; `after` is the contact of the expression without it. -/
  | starred (after : Contact)
  /-- A function without a name. -/
  | function
  deriving DecidableEq, Repr

namespace Shape

/-- Whether one value can be assigned to it, and only one. -/
def isSingle : Shape → Bool
  | name _ => true
  | location => true
  | _ => false

/-- Whether it has a star. -/
def isStarred : Shape → Bool
  | starred _ => true
  | _ => false

/-- The stretch of a name. -/
def name? : Shape → Option Extent
  | name extent => some extent
  | _ => none

end Shape

/-- A parsed expression: its stretch with parentheses, its marks, and what it is. -/
structure Piece where
  extent : Extent
  marks : List Mark
  shape : Shape := .value
  /-- Whether it stands in parentheses of its own. -/
  enclosed : Bool := false
  /-- Whether it is a comparison or looser, and not in parentheses. -/
  loose : Bool := false
  /-- Its contact with a keyword before it. -/
  before : Contact := .spaced
  /-- Its contact with a keyword after it. -/
  after : Contact := .spaced
  deriving Repr

namespace Piece

/-- The last of some pieces in a row. -/
def lastOf (first : Piece) (rest : List Piece) : Piece := rest.getLast?.getD first

/-- Several pieces as one value. -/
def merge (first : Piece) (rest : List Piece) : Piece :=
  let last := lastOf first rest
  { extent := first.extent.through last.extent
    marks := first.marks ++ rest.flatMap (·.marks)
    before := first.before
    after := last.after }

/-- The contact of an item of a tuple with a keyword after it. -/
def itemAfter (p : Piece) : Contact :=
  match p.shape with
  | .starred after => after
  | _ => p.after

/-- A tuple without parentheses; whether a comma ends it. -/
def tuple (first : Piece) (rest : List Piece) (closed : Bool) : Piece :=
  { first.merge rest with
    before := if first.shape.isStarred then .free else first.before
    after := if closed then .free else (lastOf first rest).itemAfter }

/-- A piece in brackets of its own kind, which part it from all keywords. -/
def bracketed (start stop : Extent) (marks : List Mark) : Piece :=
  { extent := start.through stop, marks, before := .free, after := .free }

/-- A piece in parentheses. A function without a name stays undecided before. -/
def parenthesised (p : Piece) (start stop : Extent) : Piece :=
  { p with
    extent := start.through stop
    enclosed := true
    loose := false
    before := if p.shape = .function then .undecided else .free
    after := .free }

/-- A piece behind a star. -/
def starred (p : Piece) (star : Extent) : Piece :=
  { extent := star.through p.extent, marks := p.marks, shape := .starred p.after }

end Piece

end Emend.Grammar
