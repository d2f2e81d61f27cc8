import Emend.Patch.Apply

/-!
# The order of ranges

Ranges are ordered by start and then by end. The order is total and transitive,
but it cannot tell patches with one range apart; their order is the order in
which they were proposed. `StableOrder` says this without mentioning a sorting
algorithm: the same patches, in the order of their ranges, and for every range
the patches that have it as they stood before. Such a list exists, because
sorting yields it, and there is only one.

Two patches are apart when one ends before the other starts. In the order of
ranges it suffices to compare neighbours: a range that ends before the next one
starts also ends before every later one. Ties on the start are decided by the
end, so an insertion stands before a range that starts at its offset and is not
taken for an overlap.
-/

namespace Emend.Patch

/-- Whether a patch has a given range. -/
def hasRange (start stop : Nat) (p : Patch) : Bool := p.start = start && p.stop = stop

/-- A list of patches in the order of their ranges, in which patches with one
range keep the order that they have in the given list. -/
structure StableOrder (patches ordered : List Patch) : Prop where
  perm : ordered.Perm patches
  sorted : ordered.Pairwise fun p q => p.precedes q = true
  stable : ∀ start stop, ordered.filter (hasRange start stop) = patches.filter (hasRange start stop)

/-- One patch ends before the other starts, in one of the two ways. -/
def Apart (p q : Patch) : Prop := p.stop ≤ q.start ∨ q.stop ≤ p.start

instance (p q : Patch) : Decidable (Apart p q) := inferInstanceAs (Decidable (_ ∨ _))

theorem precedes_iff (p q : Patch) :
    p.precedes q = true ↔ p.start < q.start ∨ p.start = q.start ∧ p.stop ≤ q.stop := by
  simp [precedes]

theorem hasRange_iff (start stop : Nat) (p : Patch) :
    p.hasRange start stop = true ↔ p.start = start ∧ p.stop = stop := by
  simp [hasRange]

theorem precedes_trans (p q r : Patch) (first : p.precedes q = true)
    (second : q.precedes r = true) : p.precedes r = true := by
  rw [precedes_iff] at first second ⊢
  omega

theorem precedes_total (p q : Patch) : (p.precedes q || q.precedes p) = true := by
  rw [Bool.or_eq_true, precedes_iff, precedes_iff]
  omega

/-- Patches that precede each other have one range. -/
theorem hasRange_of_precedes (p q : Patch) (first : p.precedes q = true)
    (second : q.precedes p = true) : q.hasRange p.start p.stop = true := by
  rw [precedes_iff] at first second
  rw [hasRange_iff]
  omega

/-- The patches with one range are in order however they stand, so sorting
keeps them as a sublist; there are no others with that range to add. -/
theorem sort_filter_hasRange (patches : List Patch) (start stop : Nat) :
    (sort patches).filter (hasRange start stop) = patches.filter (hasRange start stop) := by
  have tied : (patches.filter (hasRange start stop)).Pairwise fun p q => p.precedes q = true := by
    apply List.Pairwise.imp_of_mem (R := fun _ _ => True)
    · intro p q inP inQ _
      have rangeP := (hasRange_iff start stop p).mp (List.mem_filter.mp inP).2
      have rangeQ := (hasRange_iff start stop q).mp (List.mem_filter.mp inQ).2
      rw [precedes_iff]
      omega
    · exact List.pairwise_of_forall fun _ _ => trivial
  have kept : (patches.filter (hasRange start stop)).Sublist (sort patches) :=
    List.sublist_mergeSort precedes_trans precedes_total tied List.filter_sublist
  have inside : (patches.filter (hasRange start stop)).Sublist
      ((sort patches).filter (hasRange start stop)) := by
    simpa only [List.filter_filter, Bool.and_self] using kept.filter (hasRange start stop)
  have count := (List.mergeSort_perm patches precedes).filter (hasRange start stop)
  exact (inside.eq_of_length count.length_eq.symm).symm

/-- Sorting yields a stable order. -/
theorem sort_stableOrder (patches : List Patch) : StableOrder patches (sort patches) where
  perm := List.mergeSort_perm patches precedes
  sorted := List.pairwise_mergeSort precedes_trans precedes_total patches
  stable := sort_filter_hasRange patches

/-- Ordered lists that agree on the patches of every range are equal. The heads
precede each other, so they have one range, and both are the first with it. -/
theorem eq_of_sorted_of_filter_hasRange (left right : List Patch)
    (leftSorted : left.Pairwise fun p q => p.precedes q = true)
    (rightSorted : right.Pairwise fun p q => p.precedes q = true)
    (agree : ∀ start stop, left.filter (hasRange start stop) = right.filter (hasRange start stop)) :
    left = right := by
  have selected (p : Patch) : p.hasRange p.start p.stop = true := by simp [hasRange]
  have sameMembers (p : Patch) : p ∈ left ↔ p ∈ right := by
    have same := congrArg (p ∈ ·) (agree p.start p.stop)
    simpa [List.mem_filter, selected] using same
  induction left generalizing right with
  | nil =>
    cases right with
    | nil => rfl
    | cons q rest => exact absurd ((sameMembers q).mpr List.mem_cons_self) List.not_mem_nil
  | cons p rest inductionHypothesis =>
    cases right with
    | nil => exact absurd ((sameMembers p).mp List.mem_cons_self) List.not_mem_nil
    | cons q tail =>
      obtain ⟨leftHead, leftTail⟩ := List.pairwise_cons.mp leftSorted
      obtain ⟨rightHead, rightTail⟩ := List.pairwise_cons.mp rightSorted
      have same : p = q := by
        rcases List.mem_cons.mp ((sameMembers p).mp List.mem_cons_self) with same | later
        · exact same
        rcases List.mem_cons.mp ((sameMembers q).mpr List.mem_cons_self) with same | further
        · exact same.symm
        have oneRange := hasRange_of_precedes p q (leftHead q further) (rightHead p later)
        have heads := agree p.start p.stop
        rw [List.filter_cons_of_pos (selected p), List.filter_cons_of_pos oneRange] at heads
        exact (List.cons.inj heads).1
      subst same
      have tails (start stop : Nat) :
          rest.filter (hasRange start stop) = tail.filter (hasRange start stop) := by
        have whole := agree start stop
        by_cases here : p.hasRange start stop = true
        · rw [List.filter_cons_of_pos here, List.filter_cons_of_pos here] at whole
          exact (List.cons.inj whole).2
        · rwa [List.filter_cons_of_neg here, List.filter_cons_of_neg here] at whole
      have tailMembers (r : Patch) : r ∈ rest ↔ r ∈ tail := by
        have same := congrArg (r ∈ ·) (tails r.start r.stop)
        simpa [List.mem_filter, selected] using same
      rw [inductionHypothesis tail leftTail rightTail tails tailMembers]

/-- There is only one stable order. -/
theorem StableOrder.eq_sort {patches ordered : List Patch} (order : StableOrder patches ordered) :
    ordered = sort patches := by
  apply eq_of_sorted_of_filter_hasRange ordered (sort patches) order.sorted
    (sort_stableOrder patches).sorted
  intro start stop
  rw [order.stable, sort_filter_hasRange]

theorem Apart.symm {p q : Patch} (apart : Apart p q) : Apart q p := Or.symm apart

/-- In the order of ranges, patches that are apart stand one after the other.
Only an empty range could end before a range that precedes it starts, and then
the tie on the start is decided by the end. -/
theorem apart_iff_of_precedes {p q : Patch} (before : p.precedes q = true) :
    Apart p q ↔ p.stop ≤ q.start := by
  have orderedP := p.ordered
  have orderedQ := q.ordered
  rw [precedes_iff] at before
  unfold Apart
  omega

/-- An insertion is apart from a patch unless it lies strictly inside of it. -/
theorem insertion_apart_iff {p q : Patch} (insertion : p.start = p.stop) :
    Apart p q ↔ ¬ (q.start < p.start ∧ p.start < q.stop) := by
  have orderedQ := q.ordered
  unfold Apart
  omega

/-- Patches with one range are apart exactly when they are insertions. -/
theorem sameRange_apart_iff {p q : Patch} (sameStart : p.start = q.start)
    (sameStop : p.stop = q.stop) : Apart p q ↔ p.start = p.stop := by
  have orderedP := p.ordered
  unfold Apart
  omega

/-- Comparing neighbours finds nothing exactly when each patch ends before
every later one starts. A patch that ends before the next starts ends before
that one ends, and so the bound is handed on. -/
theorem firstOverlap_eq_none_iff (patches : List Patch) :
    firstOverlap patches = none ↔ patches.Pairwise fun p q => p.stop ≤ q.start := by
  fun_induction firstOverlap patches with
  | case1 p q rest overlap =>
    have reached : ¬ p.stop ≤ q.start := Nat.not_le.mpr overlap
    simp [reached]
  | case2 p q rest clear inductionHypothesis =>
    rw [inductionHypothesis]
    constructor
    · intro later
      refine List.pairwise_cons.mpr ⟨?_, later⟩
      intro r member
      rcases List.mem_cons.mp member with rfl | member
      · exact Nat.not_lt.mp clear
      · have handedOn := (List.pairwise_cons.mp later).1 r member
        have orderedQ := q.ordered
        omega
    · intro all
      exact (List.pairwise_cons.mp all).2
  | case3 patches short =>
    match patches, short with
    | [], _ => simp
    | [p], _ => simp
    | p :: q :: rest, short => exact absurd rfl (short p q rest)

/-- An overlap that is found is one of two patches of the list. -/
theorem firstOverlap_eq_some {patches : List Patch} {p q : Patch}
    (found : firstOverlap patches = some (p, q)) :
    p ∈ patches ∧ q ∈ patches ∧ q.start < p.stop := by
  fun_induction firstOverlap patches with
  | case1 first second rest overlap =>
    obtain ⟨rfl, rfl⟩ := Prod.mk.inj (Option.some.inj found)
    exact ⟨by simp, by simp, overlap⟩
  | case2 first second rest clear inductionHypothesis =>
    obtain ⟨inP, inQ, overlap⟩ := inductionHypothesis found
    exact ⟨List.mem_cons_of_mem _ inP, List.mem_cons_of_mem _ inQ, overlap⟩
  | case3 => exact absurd found (by simp)

/-- Comparing neighbours after sorting accepts exactly the lists whose patches
are pairwise apart. -/
theorem firstOverlap_sort_eq_none_iff (patches : List Patch) :
    firstOverlap (sort patches) = none ↔ patches.Pairwise Apart := by
  have sorted := (sort_stableOrder patches).sorted
  rw [firstOverlap_eq_none_iff, ← (sort_stableOrder patches).perm.pairwise_iff Apart.symm]
  constructor
  · intro chained
    exact chained.imp Or.inl
  · intro apart
    exact sorted.imp₂ (fun _ _ before apart => (apart_iff_of_precedes before).mp apart) apart

end Emend.Patch
