import Emend.Proofs.Stitching

/-!
# Where the text stands after patches have been applied

A patch makes what follows it move by the difference between the length of its
replacement and the length of its range. After all patches have been applied,
what lies outside of their ranges has moved by the sum over the patches that end
before it, and a replacement stands where its range started, moved by the sum
over the patches before it in the order of ranges.

All of it comes from one split: what stitching writes for the first patches of an
ordered list has a length that their ranges and replacements decide, and from
there stitching goes on with the patches that are left.
-/

namespace Emend.Patch

/-- By how much a patch makes a text longer. -/
def growth (p : Patch) : Int := p.replacement.length - ((p.stop : Int) - p.start)

/-- By how much patches make a text longer together. -/
def totalGrowth : List Patch → Int
  | [] => 0
  | p :: rest => p.growth + totalGrowth rest

/-- A part stands in a text at a position. -/
def StandsAt (part : Text) (position : Int) (text : Text) : Prop :=
  ∃ front back, text = front ++ part ++ back ∧ (front.length : Int) = position

/-- The offset after the last of some patches, or where they start if there is
none. -/
def reached (cursor : Nat) : List Patch → Nat
  | [] => cursor
  | p :: rest => reached p.stop rest

/-- Patches that lie one after the other between an offset and the end of a
text. -/
structure InLine (text : Text) (cursor : Nat) (ordered : List Patch) : Prop where
  chained : ordered.Pairwise fun p q => p.stop ≤ q.start
  ahead : ∀ p ∈ ordered, cursor ≤ p.start
  inside : ∀ p ∈ ordered, p.stop ≤ text.length

/-- The order of patches does not matter for their growth. -/
theorem totalGrowth_perm {patches other : List Patch} (perm : patches.Perm other) :
    totalGrowth patches = totalGrowth other := by
  induction perm with
  | nil => rfl
  | cons p _ inductionHypothesis => rw [totalGrowth, totalGrowth, inductionHypothesis]
  | swap p q rest =>
    simp only [totalGrowth]
    omega
  | trans _ _ first second => exact first.trans second

namespace InLine

variable {text : Text} {cursor : Nat} {p : Patch} {ordered before after : List Patch}

theorem tail (line : InLine text cursor (p :: ordered)) : InLine text p.stop ordered where
  chained := (List.pairwise_cons.mp line.chained).2
  ahead := (List.pairwise_cons.mp line.chained).1
  inside q member := line.inside q (List.mem_cons_of_mem p member)

theorem left (line : InLine text cursor (before ++ after)) : InLine text cursor before where
  chained := (List.pairwise_append.mp line.chained).1
  ahead q member := line.ahead q (List.mem_append_left after member)
  inside q member := line.inside q (List.mem_append_left after member)

/-- The patches of a line end between its start and a bound on their ends. -/
theorem reached_le (line : InLine text cursor ordered) {bound : Nat} (start : cursor ≤ bound)
    (ends : ∀ p ∈ ordered, p.stop ≤ bound) : reached cursor ordered ≤ bound := by
  induction ordered generalizing cursor with
  | nil => exact start
  | cons p rest inductionHypothesis =>
    exact inductionHypothesis line.tail (ends p List.mem_cons_self)
      fun q member => ends q (List.mem_cons_of_mem p member)

/-- Stitching writes the first patches in a length that they decide, and goes on
after the last of them. -/
theorem stitchFrom_append (line : InLine text cursor before) (after : List Patch) :
    ∃ front, stitchFrom text cursor (before ++ after) =
        front ++ stitchFrom text (reached cursor before) after ∧
      (front.length : Int) = reached cursor before - cursor + totalGrowth before := by
  induction before generalizing cursor with
  | nil => exact ⟨[], rfl, by simp [reached, totalGrowth]⟩
  | cons p rest inductionHypothesis =>
    obtain ⟨front, written, length⟩ := inductionHypothesis line.tail
    have start := line.ahead p List.mem_cons_self
    have ends := line.inside p List.mem_cons_self
    have order := p.ordered
    have copied : (text.slice cursor p.start).length = p.start - cursor := by
      rw [Text.slice, List.length_take, List.length_drop]
      omega
    refine ⟨text.slice cursor p.start ++ p.replacement ++ front, ?_, ?_⟩
    · rw [List.cons_append, stitchFrom, written, reached]
      simp only [List.append_assoc]
    · rw [List.length_append, List.length_append, copied, reached, totalGrowth, growth]
      omega

/-- A line splits at an offset that lies in none of its ranges. Once a range
starts behind the offset so do all later ones. -/
theorem split_at {offset : Nat} (line : InLine text cursor ordered)
    (outside : ∀ p ∈ ordered, ¬ (p.start ≤ offset ∧ offset < p.stop)) :
    ∃ before after, ordered = before ++ after ∧ (∀ p ∈ before, p.stop ≤ offset) ∧
      ∀ p ∈ after, offset < p.start := by
  induction ordered generalizing cursor with
  | nil => exact ⟨[], [], rfl, by simp, by simp⟩
  | cons p rest inductionHypothesis =>
    have here := outside p List.mem_cons_self
    by_cases passed : p.stop ≤ offset
    · obtain ⟨before, after, rfl, ended, ahead⟩ := inductionHypothesis line.tail
        fun q member => outside q (List.mem_cons_of_mem p member)
      refine ⟨p :: before, after, rfl, ?_, ahead⟩
      intro q member
      rcases List.mem_cons.mp member with rfl | member
      · exact passed
      · exact ended q member
    · refine ⟨[], p :: rest, rfl, by simp, ?_⟩
      intro q member
      rcases List.mem_cons.mp member with rfl | member
      · omega
      · have later := line.tail.ahead q member
        omega

/-- Before the first patch stitching copies the text. -/
theorem stitchFrom_copies {offset : Nat} (ahead : ∀ p ∈ ordered, offset < p.start)
    (start : cursor ≤ offset) (inside : offset < text.length) :
    StandsAt [text[offset]] (offset - cursor) (stitchFrom text cursor ordered) := by
  have cut : text.drop cursor =
      text.slice cursor offset ++ [text[offset]] ++ text.drop (offset + 1) := by
    rw [Text.slice, List.append_assoc, List.singleton_append, List.getElem_cons_drop]
    conv => lhs; rw [← List.take_append_drop (offset - cursor) (text.drop cursor)]
    rw [List.drop_drop, Nat.add_sub_cancel' start]
  have length : ((text.slice cursor offset).length : Int) = offset - cursor := by
    rw [Text.slice, List.length_take, List.length_drop]
    omega
  cases ordered with
  | nil => exact ⟨_, _, cut, length⟩
  | cons p rest =>
    have behind := ahead p List.mem_cons_self
    refine ⟨text.slice cursor offset, (text.drop (offset + 1)).take (p.start - (offset + 1)) ++
      p.replacement ++ stitchFrom text p.stop rest, ?_, length⟩
    have copied : text.slice cursor p.start = text.slice cursor offset ++ [text[offset]] ++
        (text.drop (offset + 1)).take (p.start - (offset + 1)) := by
      have width : p.start - cursor =
          (text.slice cursor offset ++ [text[offset]]).length + (p.start - (offset + 1)) := by
        rw [List.length_append, List.length_singleton]
        omega
      rw [Text.slice, cut, width, List.take_length_add_append]
    rw [stitchFrom, copied]
    simp only [List.append_assoc]

/-- A stitched text has grown by what its patches add. -/
theorem length_stitch (line : InLine text 0 ordered) :
    ((stitch text ordered).length : Int) = text.length + totalGrowth ordered := by
  obtain ⟨front, written, length⟩ := line.stitchFrom_append []
  have ends := line.reached_le (Nat.zero_le _) line.inside
  rw [List.append_nil] at written
  rw [stitch, written, stitchFrom, List.length_append, List.length_drop]
  omega

/-- A character outside of all ranges is found in the stitched text, moved by the
patches that end before it. -/
theorem stitch_keeps {offset : Nat} (line : InLine text 0 ordered) (inside : offset < text.length)
    (outside : ∀ p ∈ ordered, ¬ (p.start ≤ offset ∧ offset < p.stop)) :
    StandsAt [text[offset]] (offset + totalGrowth (ordered.filter fun p => p.stop ≤ offset))
      (stitch text ordered) := by
  obtain ⟨before, after, rfl, ended, ahead⟩ := line.split_at outside
  have selected : (before ++ after).filter (fun p => p.stop ≤ offset) = before := by
    have all : before.filter (fun p => p.stop ≤ offset) = before := by
      apply List.filter_eq_self.mpr
      intro p member
      simpa using ended p member
    have none : after.filter (fun p => p.stop ≤ offset) = [] := by
      apply List.filter_eq_nil_iff.mpr
      intro p member
      have behind := ahead p member
      have orderedP := p.ordered
      simp only [decide_eq_true_eq]
      omega
    rw [List.filter_append, all, none, List.append_nil]
  obtain ⟨front, written, length⟩ := line.left.stitchFrom_append after
  have start : reached 0 before ≤ offset := line.left.reached_le (Nat.zero_le _) ended
  obtain ⟨copied, back, rest, position⟩ := stitchFrom_copies ahead start inside
  rw [selected]
  refine ⟨front ++ copied, back, ?_, ?_⟩
  · rw [stitch, written, rest]
    simp only [List.append_assoc]
  · rw [List.length_append]
    omega

/-- A replacement is found in the stitched text at the start of its range, moved
by the patches before it. -/
theorem stitch_replaces (line : InLine text 0 (before ++ p :: after)) :
    StandsAt p.replacement (p.start + totalGrowth before) (stitch text (before ++ p :: after)) := by
  obtain ⟨front, written, length⟩ := line.left.stitchFrom_append (p :: after)
  have ended : ∀ q ∈ before, q.stop ≤ p.start := by
    intro q member
    exact (List.pairwise_append.mp line.chained).2.2 q member p List.mem_cons_self
  have start : reached 0 before ≤ p.start := line.left.reached_le (Nat.zero_le _) ended
  have ends : p.stop ≤ text.length := line.inside p (by simp)
  have orderedP := p.ordered
  refine ⟨front ++ text.slice (reached 0 before) p.start, stitchFrom text p.stop after, ?_, ?_⟩
  · rw [stitch, written, stitchFrom]
    simp only [List.append_assoc]
  · rw [List.length_append, Text.slice, List.length_take, List.length_drop]
    omega

end InLine

/-- Patches that are applied lie in line when they are sorted. -/
theorem inLine_of_stableOrder {text : Text} {patches ordered : List Patch}
    (native : ∀ p ∈ patches, p.source.text = text) (apart : patches.Pairwise Apart)
    (order : StableOrder patches ordered) : InLine text 0 ordered where
  chained := by
    rw [← firstOverlap_eq_none_iff, order.eq_sort]
    exact (firstOverlap_sort_eq_none_iff patches).mpr apart
  ahead p _ := Nat.zero_le p.start
  inside p member := by
    have inside := p.inside
    rwa [Source.length, native p (order.perm.mem_iff.mp member)] at inside

/-- After patches have been applied, everything stands where their growth moves
it.

The text has grown by the sum over all patches; a character in no range has moved
by the sum over the patches that end at or before it; and a replacement stands
where its range started, moved by the sum over the patches before it in the stable
order of ranges. -/
theorem applied_text_displaced (text result : Text) (patches : List Patch)
    (applied : apply text patches = .ok result) :
    (result.length : Int) = text.length + totalGrowth patches ∧
      (∀ offset (inside : offset < text.length),
        (∀ p ∈ patches, ¬ (p.start ≤ offset ∧ offset < p.stop)) →
          StandsAt [text[offset]]
            (offset + totalGrowth (patches.filter fun p => p.stop ≤ offset)) result) ∧
      StableOrder patches (sort patches) ∧
      ∀ before p after, StableOrder patches (before ++ p :: after) →
        StandsAt p.replacement (p.start + totalGrowth before) result := by
  obtain ⟨native, apart, rfl⟩ := of_apply_ok applied
  have order := sort_stableOrder patches
  have line := inLine_of_stableOrder native apart order
  refine ⟨?_, ?_, order, ?_⟩
  · rw [line.length_stitch, totalGrowth_perm order.perm]
  · intro offset inside outside
    have kept := line.stitch_keeps inside fun p member => outside p (order.perm.mem_iff.mp member)
    rwa [totalGrowth_perm (order.perm.filter _)] at kept
  · intro before p after stable
    rw [← stable.eq_sort]
    exact (inLine_of_stableOrder native apart stable).stitch_replaces

/-- A replacement by a longer text with an insertion at its start, and a deletion
behind it. -/
def unevenPatches : List Patch :=
  let source : Source := ⟨['a', 'b', 'c', 'd', 'e'], none⟩
  [⟨source, 3, 4, [], Nat.le_of_ble_eq_true rfl, Nat.le_of_ble_eq_true rfl⟩,
    ⟨source, 1, 2, ['X', 'Y', 'Z'], Nat.le_of_ble_eq_true rfl, Nat.le_of_ble_eq_true rfl⟩,
    ⟨source, 1, 1, ['1'], Nat.le_of_ble_eq_true rfl, Nat.le_of_ble_eq_true rfl⟩]

/-- The character between the patches moves by those before it only, and the one
behind them all by the deletion too. -/
theorem uneven_applied_text_displaced :
    apply ['a', 'b', 'c', 'd', 'e'] unevenPatches = .ok ['a', '1', 'X', 'Y', 'Z', 'c', 'e'] ∧
      StandsAt ['c'] 5 ['a', '1', 'X', 'Y', 'Z', 'c', 'e'] ∧
      StandsAt ['e'] 6 ['a', '1', 'X', 'Y', 'Z', 'c', 'e'] ∧
      StandsAt ['X', 'Y', 'Z'] 2 ['a', '1', 'X', 'Y', 'Z', 'c', 'e'] := by
  have applied : apply ['a', 'b', 'c', 'd', 'e'] unevenPatches =
      .ok ['a', '1', 'X', 'Y', 'Z', 'c', 'e'] := by
    simp [unevenPatches, apply, sort, List.mergeSort, precedes, firstOverlap, stitch, stitchFrom,
      Text.slice]
  obtain ⟨_, kept, order, replaced⟩ := applied_text_displaced _ _ _ applied
  have sorted : sort unevenPatches = unevenPatches.reverse := by
    simp [unevenPatches, sort, List.mergeSort, precedes]
  rw [sorted] at order
  exact ⟨applied, kept 2 (by decide) (by decide), kept 4 (by decide) (by decide),
    replaced [_] _ [_] order⟩

end Emend.Patch
