import Emend.Proofs.History

/-!
# Failures are atomic

A visit that fails leaves the tree as it found it, whatever it failed for: a
suggestor that cannot decide whether to skip the text or breaks off in the middle,
a value that is no patch, a patch that changes nothing or was made for another
text, patches that overlap, or a file that cannot be read or written. Patches that
were accepted before the failure are discarded with it.

The run ends there. The visits that were complete by then, in the same pass or in
an earlier one, are not taken back: at every location the tree holds what the
last of them to change that location has left there.
-/

namespace Emend.Review

variable {r : Review}

/-- What no visit changes stays the same over all of them. -/
theorem Follows.entryAt_eq {s u : Session} {visits : List (Visit r)} (follows : Follows s visits u)
    {location : Location}
    (unchanged : ∀ v ∈ visits, v.after.tree.entryAt location = v.before.tree.entryAt location) :
    u.tree.entryAt location = s.tree.entryAt location := by
  induction follows with
  | none s => rfl
  | last v => exact unchanged v List.mem_cons_self
  | next v completed further inductionHypothesis =>
    have later := inductionHypothesis fun w member =>
      unchanged w (List.mem_cons_of_mem _ member)
    exact later.trans (unchanged v List.mem_cons_self)

/-- What a run leaves behind when a visit fails after earlier ones. -/
structure FailsAtomically (r : Review) (s : Session) (earlier : List (Visit r)) (v : Visit r)
    (failure : Failure) : Prop where
  /-- The failing visit is the last one, in its pass and in the whole run. -/
  last : r.history s = earlier ++ [v]
  /-- All bytes and permissions are those from before that visit, and there is no
  file that was not there. -/
  restored : (r.run s).1.tree = v.before.tree
  /-- No patch that the visit had accepted is counted as committed. -/
  discarded : v.before.Unmoved v.after
  /-- Every earlier visit has committed what was accepted in it. -/
  committed : ∀ w ∈ earlier, w.ended = .completed ∧ ∃ text, w.SettledOn text
  /-- What it committed is there, unless a visit between has changed it. -/
  kept : ∀ front w back, earlier = front ++ w :: back → ∀ location,
    (∀ x ∈ back, x.after.tree.entryAt location = x.before.tree.entryAt location) →
      (r.run s).1.tree.entryAt location = w.after.tree.entryAt location
  /-- The run reports the failure. -/
  reported : (r.run s).2 = match failure with
    | .unforeseen fault => .error fault
    | foreseen => .ok foreseen.exitCode

/-- A run that fails during a visit has undone that visit and nothing else. -/
theorem failed_visit_atomic (wet : r.dry = false) (handsOff : ∀ g ∈ r.suggestors, g.HandsOff)
    {s : Session} {v : Visit r} (member : v ∈ r.history s) {failure : Failure}
    (failed : v.ended = .failed failure) :
    ∃ earlier, FailsAtomically r s earlier v failure := by
  have halted : v.ended ≠ .completed := by simp [failed]
  have swept := sweep_of_halted member halted
  have unmoved := v.unmoved_of_failed wet (handsOff _ (suggestor_of_mem_history member)) failed
  obtain ⟨start, final, _, follows, _⟩ := r.history_follows s
  obtain ⟨earlier, later, whole⟩ := List.append_of_mem member
  rw [whole] at follows
  obtain ⟨before, complete, _, nothing⟩ := follows.split
  rw [nothing halted] at whole
  have restored : (r.run s).1.tree = v.before.tree := by
    rw [run_tree, swept]
    exact unmoved.tree
  refine ⟨earlier, whole, restored, unmoved, ?_, ?_, ?_⟩
  · intro w among
    have present : w ∈ r.history s := by
      rw [whole]
      exact List.mem_append_left _ among
    have completed := complete w among
    exact ⟨completed, w.settled_of_not_failed wet
      (handsOff _ (suggestor_of_mem_history present)) (by simp [completed])⟩
  · rintro front w back rfl location unchanged
    rw [restored]
    exact before.split.2.2.1.entryAt_eq unchanged
  · rw [run, swept, failed]
    cases failure <;> rfl

/-- Two passes over all files. -/
def digitReview : Review where
  query := .inDirectory ['.'] .all true false []
  suggestors := [.twoDigits, .twoDigits]

/-- Three files, of which the second one is too short, and the answers yes, no
and yes. -/
def digitSession : Session where
  tree := { entries := [([['c']], .file [49, 48] 0o644), ([['b']], .file [49] 0o755),
    ([['a']], .file [49, 48] 0o600)] }
  console := { input := [.text ['y', '\n'], .text ['n', '\n'], .text ['y', '\n']] }

/-- The first file is committed; the visit to the second one fails after a patch
was accepted, and the third one is not visited. -/
theorem digits_failed_visit_atomic :
    (digitReview.dry = false ∧ ∀ g ∈ digitReview.suggestors, g.HandsOff) ∧
      ∃ v ∈ digitReview.history digitSession,
        v.path = ['.', '/', 'b'] ∧
        v.ended = .failed (.generateThrew "Digits('digits')" (.invalidRange 1 2 1)) ∧
        ∃ earlier, FailsAtomically digitReview digitSession earlier v
          (.generateThrew "Digits('digits')" (.invalidRange 1 2 1)) := by
  have handsOff : ∀ g ∈ digitReview.suggestors, g.HandsOff := by
    intro g member source
    have same : g = .twoDigits := by simpa [digitReview] using member
    exact same ▸ Suggestor.twoDigits_handsOff source
  have unsorted : digitReview.query.paths (digitSession.say "searching...".toList).tree =
      .ok [['.', '/', 'c'], ['.', '/', 'b'], ['.', '/', 'a']] := rfl
  have listed : digitReview.query.sortedPaths (digitSession.say "searching...".toList).tree =
      .ok [['.', '/', 'a'], ['.', '/', 'b'], ['.', '/', 'c']] := by
    rw [Query.sortedPaths, unsorted]
    simp [Except.map, List.mergeSort, Text.precedes]
  have found : (digitReview.visits .twoDigits [['.', '/', 'a'], ['.', '/', 'b'], ['.', '/', 'c']]
      (digitSession.say "searching...".toList)).any (fun v => v.path = ['.', '/', 'b'] ∧
        v.ended = .failed (.generateThrew "Digits('digits')" (.invalidRange 1 2 1))) = true := by
    decide +kernel
  obtain ⟨v, member, seen⟩ := List.any_eq_true.mp found
  obtain ⟨path, failed⟩ := of_decide_eq_true seen
  have passed : v ∈ digitReview.passVisits .twoDigits (digitSession.say "searching...".toList) := by
    rw [passVisits_eq listed]
    exact member
  have present : v ∈ digitReview.history digitSession := by
    rw [history, if_pos (by decide +kernel)]
    exact List.mem_append_left _ passed
  exact ⟨⟨rfl, handsOff⟩, v, present, path, failed,
    failed_visit_atomic rfl handsOff present failed⟩

end Emend.Review
