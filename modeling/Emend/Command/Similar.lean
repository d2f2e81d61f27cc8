import Emend.Text.Class

/-!
# Similar words

How alike two words are: twice the number of characters in matching blocks over the number of
characters of both. The blocks are found from the longest one outwards, and of blocks of one length
the earliest is taken. A word is similar to another from three fifths on.
-/

namespace Emend.Command

/-- The length of the longest common start of two texts. -/
def commonStart : Text → Text → Nat
  | a :: as, b :: bs => if a = b then commonStart as bs + 1 else 0
  | _, _ => 0

/-- A block of equal characters: where it starts in either text, and its length. -/
structure MatchBlock where
  left : Nat
  right : Nat
  size : Nat
  deriving DecidableEq, Repr

/-- The longer of two blocks; of blocks of one length the first. -/
def MatchBlock.longer (a b : MatchBlock) : MatchBlock := if a.size < b.size then b else a

/-- The earliest of the longest blocks that two texts share. -/
def longestBlock (a b : Text) : MatchBlock :=
  (List.range a.length).foldl
    (fun best i =>
      (List.range b.length).foldl
        (fun best j => best.longer ⟨i, j, commonStart (a.drop i) (b.drop j)⟩) best)
    ⟨0, 0, 0⟩

/-- The number of characters in matching blocks; at most `rounds` blocks lie around one another. -/
def matching : Nat → Text → Text → Nat
  | 0, _, _ => 0
  | rounds + 1, a, b =>
    let block := longestBlock a b
    if block.size = 0 then 0
    else
      block.size + matching rounds (a.take block.left) (b.take block.right) +
        matching rounds (a.drop (block.left + block.size)) (b.drop (block.right + block.size))

/-- A candidate with the number of its matching characters and the length of both words. -/
structure Candidate where
  word : Text
  matched : Nat
  length : Nat

/-- The order of candidates: the more alike first, and of equally alike ones the later word. -/
def Candidate.comesFirst (a b : Candidate) : Bool :=
  let left := a.matched * b.length
  let right := b.matched * a.length
  right < left || (left = right && Text.precedes b.word a.word)

/-- The words that are similar to a given one, at most three, the most similar first. -/
def similarWords (word : Text) (words : List Text) : List Text :=
  let candidates := words.map fun w =>
    Candidate.mk w (matching w.length w word) (w.length + word.length)
  let close := candidates.filter fun c => 3 * c.length ≤ 10 * c.matched
  ((close.mergeSort Candidate.comesFirst).take 3).map (·.word)

end Emend.Command
