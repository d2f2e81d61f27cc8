import Emend.Patch

/-!
# Applying patches

Patches are put in order of their ranges, by start and then by end, and patches with one range keep
the order in which they were proposed. In that order each must end before the next starts; then one
pass over the text copies what lies between them and writes the replacements. A patch that was built
against another text is refused before overlaps are looked for.
-/

namespace Emend

namespace Patch

/-- The order of ranges: by start, and by end where the starts agree. -/
def precedes (p q : Patch) : Bool := p.start < q.start || (p.start = q.start && p.stop ≤ q.stop)

/-- The patches in the order of their ranges; patches with one range keep their order. -/
def sort (patches : List Patch) : List Patch := patches.mergeSort precedes

/-- The first two neighbours of which the first reaches past the start of the second. -/
def firstOverlap : List Patch → Option (Patch × Patch)
  | p :: q :: rest => if q.start < p.stop then some (p, q) else firstOverlap (q :: rest)
  | _ => none

/-- The text from `cursor` on with ordered patches written in. -/
def stitchFrom (text : Text) (cursor : Nat) : List Patch → Text
  | [] => text.drop cursor
  | p :: rest => text.slice cursor p.start ++ p.replacement ++ stitchFrom text p.stop rest

/-- The text with ordered, disjoint patches written in. -/
def stitch (text : Text) (patches : List Patch) : Text := stitchFrom text 0 patches

/-- The text with all patches applied, in whatever order they are given. -/
def apply (text : Text) (patches : List Patch) : Except Fault Text :=
  let ordered := sort patches
  match ordered.find? fun p => p.source.text ≠ text with
  | some p => .error (.foreignPatch p.describe)
  | none =>
    match firstOverlap ordered with
    | some (p, q) => .error (.overlap (p.start, p.stop) (q.start, q.stop) p.source.url)
    | none => .ok (stitch text ordered)

end Patch

end Emend
