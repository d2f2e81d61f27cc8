import Emend.Proofs.Stitching
import Mathlib.Logic.Equiv.Defs

/-!
# Patches given in another order

Patches are sorted before they are applied, so the order in which they are given
matters only where sorting keeps it: among patches with one range. A list in
which those stand as before is applied with the same outcome, down to the wording
of a fault.

Patches with one range are apart only if they are insertions. Where no two
insertions share an offset, patches that can be applied therefore have ranges
that differ, and every order gives the same text. Whether they can be applied,
and under which class they are refused otherwise, does not depend on the order.
-/

namespace Emend.Patch

/-- The same patches in another order, in which patches with one range follow one
another as before; `place` says where each patch stood. -/
def Rearranged (patches other : List Patch) : Prop :=
  ∃ place : Fin other.length ≃ Fin patches.length,
    (∀ i, other.get i = patches.get (place i)) ∧
      ∀ i j, i < j → (other.get i).start = (other.get j).start →
        (other.get i).stop = (other.get j).stop → place i < place j

/-- No two insertions share an offset. -/
def Untied (patches : List Patch) : Prop :=
  patches.Pairwise fun p q => p.start = p.stop → q.start = q.stop → p.start ≠ q.start

instance (patches : List Patch) : Decidable (Untied patches) :=
  inferInstanceAs (Decidable (patches.Pairwise _))

variable {patches other : List Patch}

/-- Moving the patches back is a rearrangement too. -/
theorem Rearranged.symm (moved : Rearranged patches other) : Rearranged other patches := by
  obtain ⟨place, same, ties⟩ := moved
  have before (i : Fin patches.length) : patches.get i = other.get (place.symm i) := by
    rw [same, place.apply_symm_apply]
  refine ⟨place.symm, before, ?_⟩
  intro i j earlier starts stops
  rw [before i, before j] at starts stops
  apply Decidable.byContradiction
  intro late
  rcases Nat.lt_or_eq_of_le (Nat.not_lt.mp late) with swapped | together
  · have order := ties _ _ swapped starts.symm stops.symm
    rw [place.apply_symm_apply, place.apply_symm_apply] at order
    exact absurd order (Nat.lt_asymm earlier)
  · have equal : j = i := place.symm.injective (Fin.ext together)
    exact absurd earlier (equal ▸ Nat.lt_irrefl _)

/-- The patches with a range, as they follow one another in the new list, are
found in this order in the old one. -/
theorem Rearranged.filter_sublist (moved : Rearranged patches other) (start stop : Nat) :
    (other.filter (hasRange start stop)).Sublist (patches.filter (hasRange start stop)) := by
  obtain ⟨place, same, ties⟩ := moved
  obtain ⟨picked, selection, increasing⟩ :=
    List.sublist_eq_map_getElem (List.filter_sublist (p := hasRange start stop) (l := other))
  have range {i : Fin other.length} (member : i ∈ picked) :
      (other.get i).start = start ∧ (other.get i).stop = stop := by
    have selected : other.get i ∈ other.filter (hasRange start stop) := by
      rw [selection]
      exact List.mem_map_of_mem member
    exact (hasRange_iff start stop _).mp (List.mem_filter.mp selected).2
  have kept : (picked.map place).Pairwise (· < ·) := by
    rw [List.pairwise_map]
    apply increasing.imp_of_mem
    intro i j inI inJ earlier
    obtain ⟨startI, stopI⟩ := range inI
    obtain ⟨startJ, stopJ⟩ := range inJ
    exact ties i j earlier (startI.trans startJ.symm) (stopI.trans stopJ.symm)
  have origin : other.filter (hasRange start stop) =
      (picked.map place).map fun i => patches[i] := by
    rw [selection, List.map_map]
    exact List.map_congr_left fun i _ => same i
  have inside : (other.filter (hasRange start stop)).Sublist patches := by
    rw [origin]
    exact List.map_getElem_sublist kept
  simpa only [List.filter_filter, Bool.and_self] using inside.filter (hasRange start stop)

/-- A rearrangement has the same patches of every range in the same order. -/
theorem Rearranged.filter_eq (moved : Rearranged patches other) (start stop : Nat) :
    other.filter (hasRange start stop) = patches.filter (hasRange start stop) :=
  (moved.filter_sublist start stop).eq_of_length_le (moved.symm.filter_sublist start stop).length_le

/-- Sorting depends only on the patches of each range and their order. -/
theorem sort_congr (agree : ∀ start stop,
      other.filter (hasRange start stop) = patches.filter (hasRange start stop)) :
    sort other = sort patches := by
  apply eq_of_sorted_of_filter_hasRange
  · exact (sort_stableOrder other).sorted
  · exact (sort_stableOrder patches).sorted
  · intro start stop
    rw [sort_filter_hasRange, sort_filter_hasRange, agree]

/-- Applying looks at the patches only after it has sorted them. -/
theorem apply_congr (text : Text) (same : sort other = sort patches) :
    apply text other = apply text patches := by
  simp only [apply, same]

/-- Patches that are apart have ranges that differ, unless they are insertions at
one offset. -/
theorem length_filter_hasRange_le_one (apart : patches.Pairwise Apart) (untied : Untied patches)
    (start stop : Nat) : (patches.filter (hasRange start stop)).length ≤ 1 := by
  have apart := apart.filter (hasRange start stop)
  have untied := List.Pairwise.filter (hasRange start stop) untied
  match selected : patches.filter (hasRange start stop) with
  | [] => exact Nat.zero_le 1
  | [_] => exact Nat.le_refl 1
  | p :: q :: rest =>
    have ranges {r : Patch} (member : r ∈ p :: q :: rest) : r.start = start ∧ r.stop = stop := by
      rw [← selected] at member
      exact (hasRange_iff start stop r).mp (List.mem_filter.mp member).2
    obtain ⟨startP, stopP⟩ := ranges List.mem_cons_self
    obtain ⟨startQ, stopQ⟩ := ranges (List.mem_cons_of_mem p List.mem_cons_self)
    rw [selected] at apart untied
    have clear := List.rel_of_pairwise_cons apart List.mem_cons_self
    have insertion : p.start = p.stop :=
      (sameRange_apart_iff (startP.trans startQ.symm) (stopP.trans stopQ.symm)).mp clear
    have differ := List.rel_of_pairwise_cons untied List.mem_cons_self insertion (by omega)
    exact absurd (startP.trans startQ.symm) differ

/-- Patches whose ranges differ are sorted to one list, however they are given. -/
theorem sort_eq_of_perm (perm : other.Perm patches) (apart : patches.Pairwise Apart)
    (untied : Untied patches) : sort other = sort patches := by
  apply sort_congr
  intro start stop
  have few := length_filter_hasRange_le_one apart untied start stop
  have moved := perm.filter (hasRange start stop)
  match selected : patches.filter (hasRange start stop) with
  | [] => exact List.perm_nil.mp (selected ▸ moved)
  | [_] => exact List.perm_singleton.mp (selected ▸ moved)
  | _ :: _ :: _ => simp [selected] at few

/-- The order in which patches are given decides nothing but the order of
insertions at one offset.

Where patches with one range follow one another as before, the outcome is the
same. Where no two insertions share an offset, every permutation gives the same
text, or is refused under the same class. -/
theorem application_order_free (text : Text) (patches other : List Patch) :
    (Rearranged patches other → apply text other = apply text patches) ∧
      (other.Perm patches → Untied patches →
        (apply text other).mapError Fault.kind = (apply text patches).mapError Fault.kind) := by
  constructor
  · intro moved
    exact apply_congr text (sort_congr moved.filter_eq)
  · intro perm untied
    rcases apply_cases text patches with
      ⟨⟨p, member, foreign⟩, _, refused⟩ | ⟨native, meeting, _, _, _, refused⟩ | ⟨_, apart, _⟩
    · obtain ⟨_, _, _, refusedToo⟩ := apply_foreign ⟨p, perm.mem_iff.mpr member, foreign⟩
      rw [refused, refusedToo]
      rfl
    · have nativeToo : ∀ p ∈ other, p.source.text = text := by
        intro p member
        exact native p (perm.mem_iff.mp member)
      have meetingToo : ¬ other.Pairwise Apart := by
        rwa [perm.pairwise_iff Apart.symm]
      obtain ⟨_, _, _, _, _, refusedToo⟩ := apply_overlap nativeToo meetingToo
      rw [refused, refusedToo]
      rfl
    · rw [apply_congr text (sort_eq_of_perm perm apart untied)]

/-- A replaced range and two insertions at its start. -/
def tiedPatches : List Patch :=
  let source : Source := ⟨['a', 'b', 'c', 'd'], none⟩
  [⟨source, 2, 3, ['X'], Nat.le_of_ble_eq_true rfl, Nat.le_of_ble_eq_true rfl⟩,
    ⟨source, 2, 2, ['1'], Nat.le_of_ble_eq_true rfl, Nat.le_of_ble_eq_true rfl⟩,
    ⟨source, 2, 2, ['2'], Nat.le_of_ble_eq_true rfl, Nat.le_of_ble_eq_true rfl⟩]

/-- The replaced range may stand anywhere, and without the second insertion so may
the first. -/
theorem tied_application_order_free :
    (Rearranged tiedPatches (tiedPatches.rotateLeft 1) ∧
        apply ['a', 'b', 'c', 'd'] (tiedPatches.rotateLeft 1) =
          apply ['a', 'b', 'c', 'd'] tiedPatches) ∧
      Untied (tiedPatches.take 2) ∧
      (apply ['a', 'b', 'c', 'd'] (tiedPatches.take 2).reverse).mapError Fault.kind =
        (apply ['a', 'b', 'c', 'd'] (tiedPatches.take 2)).mapError Fault.kind := by
  have moved : Rearranged tiedPatches (tiedPatches.rotateLeft 1) := by
    let turned : Fin 3 ≃ Fin 3 := ⟨(· + 1), (· - 1), (by decide : ∀ _, _), (by decide : ∀ _, _)⟩
    refine ⟨turned, ?_, ?_⟩ <;> decide
  have untied : Untied (tiedPatches.take 2) := by decide
  exact ⟨⟨moved, (application_order_free _ _ _).1 moved⟩, untied,
    (application_order_free _ _ _).2 (List.reverse_perm _) untied⟩

end Emend.Patch
