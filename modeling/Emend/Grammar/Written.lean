import Emend.Grammar.Token

/-!
# The written form of a module

Nodes of a syntax tree are found by lines and columns, and these are counted in the written form of
the tree: the text that the tree is written as. The written form is the text of the module except
where the tree does not keep it. The margin of a logical line is written as the indentation of its
block, so a byte order mark, form feeds and continued lines in the margin are lost; some gaps
between tokens are not written; and a tuple of one target gets the comma that it lacks.

A line of the written form ends at a newline, at a carriage return, or at both together.
-/

namespace Emend.Grammar

/-- A line and a column of the written form, from zero. -/
structure Place where
  line : Nat
  column : Nat
  deriving DecidableEq, Repr

namespace Place

/-- The place after a character, given the character that follows it. -/
def next (p : Place) (c : Char) (following : Option Char) : Place :=
  if c = '\n' || (c = '\r' && following ≠ some '\n') then ⟨p.line + 1, 0⟩
  else ⟨p.line, p.column + 1⟩

/-- The place after a text. -/
def after : Place → Text → Place
  | p, [] => p
  | p, c :: rest => after (p.next c rest.head?) rest

end Place

/-- A stretch of the text that is written otherwise. -/
structure Rewording where
  extent : Extent
  text : Text
  deriving DecidableEq, Repr

namespace Rewording

/-- A stretch that is not written. -/
def lost (extent : Extent) : Rewording := ⟨extent, []⟩

/-- A text that is written besides, before the character at an offset. -/
def added (offset : Nat) (text : Text) : Rewording := ⟨⟨offset, offset⟩, text⟩

/-- The order of rewordings in the text. -/
def precedes (a b : Rewording) : Bool := a.extent.start ≤ b.extent.start

end Rewording

/-- The places of the offsets of a text from `offset` on, put after those in `found`. The place of
an offset is that of the character there, and last comes the place of the end of the text.
Rewordings are given in order and apart from one another; `skipped` characters of the last one are
still to be passed over. The place of the start of a rewording is counted before it takes effect. -/
def placesFrom :
    Nat → Nat → Place → List Rewording → Text → Array Place → Array Place
  | _, _, place, _, [], found => found.push place
  | skipped + 1, offset, place, rewordings, _ :: rest, found =>
    placesFrom skipped (offset + 1) place rewordings rest (found.push place)
  | 0, offset, place, [], c :: rest, found =>
    placesFrom 0 (offset + 1) (place.next c rest.head?) [] rest (found.push place)
  | 0, offset, place, r :: later, c :: rest, found =>
    if r.extent.start = offset then
      let settled := place.after r.text
      if r.extent.stop = offset then
        placesFrom 0 (offset + 1) (settled.next c rest.head?) later rest (found.push place)
      else
        placesFrom (r.extent.stop - offset - 1) (offset + 1) settled later rest (found.push place)
    else
      placesFrom 0 (offset + 1) (place.next c rest.head?) (r :: later) rest (found.push place)

/-- The places of all offsets of a text whose written form has some rewordings. -/
def places (t : Text) (rewordings : List Rewording) : Array Place :=
  placesFrom 0 0 ⟨0, 0⟩ (rewordings.mergeSort Rewording.precedes) t #[]

end Emend.Grammar
