import Emend.Proofs.RangeOrder

/-!
# Stitching patches into a text

What comes of applying a list of patches is decided by two questions, asked in
this order: whether every patch was built against the text, and whether the
patches are pairwise apart. If both hold the result is the text in which the
ordered patches have been stitched in; otherwise it is one of two faults.

Stitching copies the text once, from front to back, with offsets of the original
text throughout. It is compared here with editing the text in place, one patch
after the other from the last to the first: the text in front of an edit is
still the original one then, so the offsets need no correction.
-/

namespace Emend.Patch

/-- The text with one range replaced, whatever the patch was built against. -/
def splice (text : Text) (p : Patch) : Text :=
  text.take p.start ++ p.replacement ++ text.drop p.stop

/-- The text after patches have been spliced in one at a time, the last of them
first. -/
def spliceBackwards (text : Text) (ordered : List Patch) : Text := ordered.reverse.foldl splice text

/-- Applying patches fails with a fault of a class. -/
def Refuses (text : Text) (patches : List Patch) (kind : String) : Prop :=
  ∃ fault, apply text patches = .error fault ∧ fault.kind = kind

/-- A patch that was built against another text is found, wherever it stands. -/
theorem apply_foreign {text : Text} {patches : List Patch}
    (foreign : ∃ p ∈ patches, p.source.text ≠ text) :
    ∃ p ∈ patches, p.source.text ≠ text ∧
      apply text patches = .error (.foreignPatch p.describe) := by
  cases first : (sort patches).find? fun p => p.source.text ≠ text with
  | none =>
    obtain ⟨p, member, other⟩ := foreign
    have passed := List.find?_eq_none.mp first p
      ((sort_stableOrder patches).perm.mem_iff.mpr member)
    exact absurd other (by simpa using passed)
  | some p =>
    have member := (sort_stableOrder patches).perm.mem_iff.mp (List.mem_of_find?_eq_some first)
    have other : p.source.text ≠ text := by simpa using List.find?_some first
    exact ⟨p, member, other, by simp only [apply, first]⟩

/-- Among patches that were built against the text no other one is found. -/
theorem find?_foreign_eq_none {text : Text} {patches : List Patch}
    (native : ∀ p ∈ patches, p.source.text = text) :
    ((sort patches).find? fun p => p.source.text ≠ text) = none := by
  rw [List.find?_eq_none]
  intro p member
  simp [native p ((sort_stableOrder patches).perm.mem_iff.mp member)]

/-- Patches that are not pairwise apart are refused for two of them. -/
theorem apply_overlap {text : Text} {patches : List Patch}
    (native : ∀ p ∈ patches, p.source.text = text) (meeting : ¬ patches.Pairwise Apart) :
    ∃ p ∈ patches, ∃ q ∈ patches, q.start < p.stop ∧
      apply text patches = .error (.overlap (p.start, p.stop) (q.start, q.stop) p.source.url) := by
  cases found : firstOverlap (sort patches) with
  | none => exact absurd ((firstOverlap_sort_eq_none_iff patches).mp found) meeting
  | some pair =>
    obtain ⟨inP, inQ, overlap⟩ := firstOverlap_eq_some (p := pair.1) (q := pair.2) found
    have members := (sort_stableOrder patches).perm
    refine ⟨pair.1, members.mem_iff.mp inP, pair.2, members.mem_iff.mp inQ, overlap, ?_⟩
    simp only [apply, find?_foreign_eq_none native, found]

/-- Patches of the text that are pairwise apart are applied. -/
theorem apply_apart {text : Text} {patches : List Patch}
    (native : ∀ p ∈ patches, p.source.text = text) (apart : patches.Pairwise Apart) :
    apply text patches = .ok (stitch text (sort patches)) := by
  have clear := (firstOverlap_sort_eq_none_iff patches).mpr apart
  simp only [apply, find?_foreign_eq_none native, clear]

/-- Every outcome of applying patches, with the condition under which it
occurs. The three conditions exclude each other and leave no case out. -/
theorem apply_cases (text : Text) (patches : List Patch) :
    (∃ p ∈ patches, p.source.text ≠ text) ∧
        (∃ description, apply text patches = .error (.foreignPatch description)) ∨
      (∀ p ∈ patches, p.source.text = text) ∧ ¬ patches.Pairwise Apart ∧
        (∃ first second url, apply text patches = .error (.overlap first second url)) ∨
      (∀ p ∈ patches, p.source.text = text) ∧ patches.Pairwise Apart ∧
        apply text patches = .ok (stitch text (sort patches)) := by
  by_cases native : ∀ p ∈ patches, p.source.text = text
  · by_cases apart : patches.Pairwise Apart
    · exact .inr (.inr ⟨native, apart, apply_apart native apart⟩)
    · obtain ⟨p, _, q, _, _, refused⟩ := apply_overlap native apart
      exact .inr (.inl ⟨native, apart, _, _, _, refused⟩)
  · have foreign : ∃ p ∈ patches, p.source.text ≠ text := by simpa using native
    obtain ⟨p, _, _, refused⟩ := apply_foreign foreign
    exact .inl ⟨foreign, _, refused⟩

/-- The patches of an application that succeeds. -/
theorem of_apply_ok {text result : Text} {patches : List Patch}
    (applied : apply text patches = .ok result) :
    (∀ p ∈ patches, p.source.text = text) ∧ patches.Pairwise Apart ∧
      result = stitch text (sort patches) := by
  rcases apply_cases text patches with ⟨_, _, refused⟩ | ⟨_, _, _, _, _, refused⟩ | accepted
  · rw [refused] at applied
    cases applied
  · rw [refused] at applied
    cases applied
  · obtain ⟨native, apart, stitched⟩ := accepted
    exact ⟨native, apart, Except.ok.inj (applied.symm.trans stitched)⟩

/-- A list has two places whose patches are not apart unless it is pairwise
apart. -/
theorem exists_meeting_iff (patches : List Patch) :
    (∃ i j, ∃ (hi : i < patches.length) (hj : j < patches.length),
        i ≠ j ∧ ¬ patches[i].stop ≤ patches[j].start ∧ ¬ patches[j].stop ≤ patches[i].start) ↔
      ¬ patches.Pairwise Apart := by
  rw [List.pairwise_iff_getElem]
  constructor
  · rintro ⟨i, j, hi, hj, different, notBefore, notAfter⟩ all
    rcases Nat.lt_or_gt_of_ne different with before | after
    · rcases all i j hi hj before with apart | apart
      · exact notBefore apart
      · exact notAfter apart
    · rcases all j i hj hi after with apart | apart
      · exact notAfter apart
      · exact notBefore apart
  · intro meeting
    simp only [Classical.not_forall] at meeting
    obtain ⟨i, j, hi, hj, before, touching⟩ := meeting
    exact ⟨i, j, hi, hj, Nat.ne_of_lt before, fun le => touching (.inl le),
      fun le => touching (.inr le)⟩

/-- A patch of another text is the cause of the one fault of its class. -/
theorem refuses_foreign_iff (text : Text) (patches : List Patch) :
    Refuses text patches "ValueError" ↔ ∃ p ∈ patches, p.source.text ≠ text := by
  rcases apply_cases text patches with
    ⟨foreign, _, refused⟩ | ⟨native, _, _, _, _, refused⟩ | ⟨native, _, accepted⟩
  · exact iff_of_true ⟨_, refused, rfl⟩ foreign
  · refine iff_of_false ?_ (fun ⟨p, member, other⟩ => other (native p member))
    rintro ⟨fault, outcome, kind⟩
    cases refused.symm.trans outcome
    simp [Fault.kind] at kind
  · refine iff_of_false ?_ (fun ⟨p, member, other⟩ => other (native p member))
    rintro ⟨fault, outcome, _⟩
    cases accepted.symm.trans outcome

/-- Patches are refused for an overlap exactly when they are all built against
the text and two of them meet. -/
theorem refuses_overlap_iff (text : Text) (patches : List Patch) :
    Refuses text patches "OverlappingPatches" ↔
      (∀ p ∈ patches, p.source.text = text) ∧ ¬ patches.Pairwise Apart := by
  rcases apply_cases text patches with
    ⟨⟨p, member, other⟩, _, refused⟩ | ⟨native, meeting, _, _, _, refused⟩ | ⟨_, apart, accepted⟩
  · refine iff_of_false ?_ (fun both => other (both.1 p member))
    rintro ⟨fault, outcome, kind⟩
    cases refused.symm.trans outcome
    simp [Fault.kind] at kind
  · exact iff_of_true ⟨_, refused, rfl⟩ ⟨native, meeting⟩
  · refine iff_of_false ?_ (fun both => both.2 apart)
    rintro ⟨fault, outcome, _⟩
    cases accepted.symm.trans outcome

/-- Patches are applied exactly when they are all built against the text and
pairwise apart. -/
theorem apply_ok_iff (text : Text) (patches : List Patch) :
    (∃ result, apply text patches = .ok result) ↔
      (∀ p ∈ patches, p.source.text = text) ∧ patches.Pairwise Apart := by
  constructor
  · rintro ⟨result, applied⟩
    obtain ⟨native, apart, _⟩ := of_apply_ok applied
    exact ⟨native, apart⟩
  · rintro ⟨native, apart⟩
    exact ⟨_, apply_apart native apart⟩

/-- Applying patches looks for foreign ones first, wherever they stand, and then
for two that meet, wherever they stand: comparing neighbours in the order of
ranges misses no pair of distant patches and finds no pair that is apart.

An insertion meets another patch only strictly inside of it, and two patches
with one range meet unless both are insertions. -/
theorem overlap_detection_exact (text : Text) (patches : List Patch) :
    (Refuses text patches "OverlappingPatches" ↔
      (∀ p ∈ patches, p.source.text = text) ∧
        ∃ i j, ∃ (hi : i < patches.length) (hj : j < patches.length),
          i ≠ j ∧ ¬ patches[i].stop ≤ patches[j].start ∧ ¬ patches[j].stop ≤ patches[i].start) ∧
    (Refuses text patches "ValueError" ↔ ∃ p ∈ patches, p.source.text ≠ text) ∧
    ((∃ result, apply text patches = .ok result) ↔
      (∀ p ∈ patches, p.source.text = text) ∧ patches.Pairwise Apart) ∧
    (∀ p q : Patch, p.start = p.stop → (Apart p q ↔ ¬ (q.start < p.start ∧ p.start < q.stop))) ∧
    (∀ p q : Patch, p.start = q.start → p.stop = q.stop → (Apart p q ↔ p.start = p.stop)) := by
  rw [exists_meeting_iff]
  exact ⟨refuses_overlap_iff text patches, refuses_foreign_iff text patches,
    apply_ok_iff text patches, fun _ _ => insertion_apart_iff, fun _ _ => sameRange_apart_iff⟩

/-- Splicing ordered patches backwards leaves what lies before all of them, and
then comes what stitching writes. The induction is on the patches from the last
one; the cursor is where the patch before it ends. -/
theorem foldr_splice_eq_stitchFrom {text : Text} {ordered : List Patch} {cursor : Nat}
    (native : ∀ p ∈ ordered, p.source.text = text)
    (chained : ordered.Pairwise fun p q => p.stop ≤ q.start)
    (ahead : ∀ p ∈ ordered, cursor ≤ p.start) :
    ordered.foldr (fun p edited => splice edited p) text =
      text.take cursor ++ stitchFrom text cursor ordered := by
  induction ordered generalizing cursor with
  | nil => simp [stitchFrom]
  | cons p rest inductionHypothesis =>
    obtain ⟨later, restChained⟩ := List.pairwise_cons.mp chained
    have restNative : ∀ q ∈ rest, q.source.text = text := by
      intro q member
      exact native q (List.mem_cons_of_mem _ member)
    have inOrder := p.ordered
    have reached : p.stop ≤ text.length := by
      have inside := p.inside
      rwa [Source.length, native p List.mem_cons_self] at inside
    have start := ahead p List.mem_cons_self
    have width : (text.take p.stop).length = p.stop := List.length_take_of_le reached
    have front : (text.take p.stop ++ stitchFrom text p.stop rest).take p.start =
        text.take cursor ++ text.slice cursor p.start := by
      rw [List.take_append_of_le_length (by omega), List.take_take, Nat.min_eq_left inOrder,
        Text.slice, ← List.take_add, Nat.add_sub_cancel' start]
    have back : (text.take p.stop ++ stitchFrom text p.stop rest).drop p.stop =
        stitchFrom text p.stop rest := List.drop_left' width
    rw [List.foldr_cons, inductionHypothesis restNative restChained later, splice, front, back]
    simp only [stitchFrom, List.append_assoc]

/-- Stitching in one pass gives the text that editing in place gives, patch by
patch from the last one in the stable order of ranges to the first. -/
theorem stitching_eq_splicing (text result : Text) (patches : List Patch)
    (applied : apply text patches = .ok result) :
    StableOrder patches (sort patches) ∧
      ∀ ordered, StableOrder patches ordered → result = spliceBackwards text ordered := by
  refine ⟨sort_stableOrder patches, ?_⟩
  intro ordered order
  obtain ⟨native, apart, rfl⟩ := of_apply_ok applied
  have members := order.perm
  have chained : ordered.Pairwise fun p q => p.stop ≤ q.start := by
    rw [← firstOverlap_eq_none_iff, order.eq_sort]
    exact (firstOverlap_sort_eq_none_iff patches).mpr apart
  have allNative : ∀ p ∈ ordered, p.source.text = text := by
    intro p member
    exact native p (members.mem_iff.mp member)
  have spliced := foldr_splice_eq_stitchFrom allNative chained (fun p _ => Nat.zero_le p.start)
  rw [spliceBackwards, List.foldl_reverse, spliced, ← order.eq_sort]
  simp [stitch]

/-- Insertions at both ends of a text and two at the start of a replaced range,
given in an order that is not that of the ranges. -/
def boundaryPatches : List Patch :=
  let source : Source := ⟨['a', 'b', 'c'], none⟩
  [⟨source, 3, 3, ['!'], by decide, by decide⟩, ⟨source, 1, 2, ['X'], by decide, by decide⟩,
    ⟨source, 1, 1, ['1'], by decide, by decide⟩, ⟨source, 1, 1, ['2'], by decide, by decide⟩,
    ⟨source, 0, 0, ['<'], by decide, by decide⟩]

/-- Patches that touch at every boundary are stitched as they are spliced. -/
theorem boundary_stitching_eq_splicing :
    apply ['a', 'b', 'c'] boundaryPatches = .ok ['<', 'a', '1', '2', 'X', 'c', '!'] ∧
      StableOrder boundaryPatches (sort boundaryPatches) ∧
      ∀ ordered, StableOrder boundaryPatches ordered →
        ['<', 'a', '1', '2', 'X', 'c', '!'] = spliceBackwards ['a', 'b', 'c'] ordered := by
  have applied : apply ['a', 'b', 'c'] boundaryPatches =
      .ok ['<', 'a', '1', '2', 'X', 'c', '!'] := by
    simp [boundaryPatches, apply, sort, List.mergeSort, precedes, firstOverlap, stitch, stitchFrom,
      Text.slice]
  exact ⟨applied, stitching_eq_splicing _ _ _ applied⟩

end Emend.Patch
