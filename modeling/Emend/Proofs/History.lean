import Emend.Proofs.Visits

/-!
# The history of a run

The history of a run is the list of its visits, over all passes. Each visit begins
in the session in which the one before ended, and the first that is not complete
is the last: a run that fails or quits during a visit does nothing to the tree
after it.
-/

namespace Emend.Review

/-- The visits to files one after the other, up to one that is not complete. -/
def visits (r : Review) (g : Suggestor) : List Text → Session → List (Visit r)
  | [], _ => []
  | path :: rest, s =>
    let v : Visit r := ⟨g, path, s, (r.visit g path s).1, (r.visit g path s).2, rfl⟩
    v :: if v.ended = .completed then visits r g rest v.after else []

/-- The visits of one pass. -/
def passVisits (r : Review) (g : Suggestor) (s : Session) : List (Visit r) :=
  match r.query.sortedPaths s.tree with
  | .error _ => []
  | .ok paths => r.visits g paths s

/-- The visits of one pass after the other. -/
def passesVisits (r : Review) : List Suggestor → Session → List (Visit r)
  | [], _ => []
  | g :: rest, s =>
    r.passVisits g s ++
      if (r.pass g s).2 = .completed then passesVisits r rest (r.pass g s).1 else []

/-- The visits of a run. -/
def history (r : Review) (s : Session) : List (Visit r) :=
  if r.query.targetExists s.tree then r.passesVisits r.suggestors (s.say "searching...".toList)
  else []

variable {r : Review}

/-- Visits lead from one session to another, each from where the one before
ended. All but the last are complete. -/
inductive Follows : Session → List (Visit r) → Session → Prop where
  | none (s : Session) : Follows s [] s
  | last (v : Visit r) : Follows v.before [v] v.after
  | next (v : Visit r) {rest : List (Visit r)} {u : Session} (completed : v.ended = .completed)
      (further : Follows v.after rest u) : Follows v.before (v :: rest) u

namespace Follows

/-- Visits go on after visits that are all complete. -/
theorem append {s m u : Session} {front back : List (Visit r)} (first : Follows s front m)
    (completed : ∀ v ∈ front, v.ended = .completed) (second : Follows m back u) :
    Follows s (front ++ back) u := by
  induction first with
  | none s => exact second
  | last v => exact .next v (completed v List.mem_cons_self) second
  | next v here further inductionHypothesis =>
    refine .next v here (inductionHypothesis ?_ second)
    intro w member
    exact completed w (List.mem_cons_of_mem _ member)

/-- The first visit begins at the start. It is complete if others follow. -/
theorem uncons {s u : Session} {v : Visit r} {rest : List (Visit r)}
    (follows : Follows s (v :: rest) u) :
    s = v.before ∧ (rest ≠ [] → v.ended = .completed) ∧ Follows v.after rest u := by
  cases follows with
  | last => exact ⟨rfl, fun some => absurd rfl some, .none _⟩
  | next _ completed further => exact ⟨rfl, fun _ => completed, further⟩

/-- Before any visit there are complete visits only, and after one that is not
complete there is none. -/
theorem split {s u : Session} {front back : List (Visit r)} {v : Visit r}
    (follows : Follows s (front ++ v :: back) u) :
    Follows s front v.before ∧ (∀ w ∈ front, w.ended = .completed) ∧ Follows v.after back u ∧
      (v.ended ≠ .completed → back = []) := by
  induction front generalizing s with
  | nil =>
    obtain ⟨rfl, completed, further⟩ := follows.uncons
    refine ⟨.none _, by simp, further, ?_⟩
    intro halted
    cases back with
    | nil => rfl
    | cons w back => exact absurd (completed (by simp)) halted
  | cons w front inductionHypothesis =>
    obtain ⟨rfl, completed, further⟩ := follows.uncons
    have completed : w.ended = .completed := completed (by simp)
    obtain ⟨before, earlier, after, halted⟩ := inductionHypothesis further
    refine ⟨.next w completed before, ?_, after, halted⟩
    intro x member
    rcases List.mem_cons.mp member with rfl | member
    · exact completed
    · exact earlier x member

end Follows

theorem visitAll_cons (g : Suggestor) (path : Text) (rest : List Text) (s : Session) :
    r.visitAll g (path :: rest) s =
      if (r.visit g path s).2 = .completed then r.visitAll g rest (r.visit g path s).1
      else r.visit g path s := by
  rw [visitAll]
  rcases r.visit g path s with ⟨m, ended⟩
  cases ended <;> rfl

theorem passes_cons (g : Suggestor) (rest : List Suggestor) (s : Session) :
    r.passes (g :: rest) s =
      if (r.pass g s).2 = .completed then r.passes rest (r.pass g s).1 else r.pass g s := by
  rw [passes]
  rcases r.pass g s with ⟨m, ended⟩
  cases ended <;> rfl

/-- With one suggestor there is one pass. -/
theorem passes_single (g : Suggestor) (s : Session) : r.passes [g] s = r.pass g s := by
  rw [passes_cons, passes]
  split
  · rename_i completed
    rw [← completed]
  · rfl

/-- The visits to files lead to where visiting them ends. If that is complete, so
are they all. -/
theorem visits_follow (g : Suggestor) (paths : List Text) (s : Session) :
    Follows s (r.visits g paths s) (r.visitAll g paths s).1 ∧
      ((r.visitAll g paths s).2 = .completed → ∀ v ∈ r.visits g paths s, v.ended = .completed) := by
  induction paths generalizing s with
  | nil => exact ⟨.none s, by simp [visits]⟩
  | cons path rest inductionHypothesis =>
    let v : Visit r := ⟨g, path, s, (r.visit g path s).1, (r.visit g path s).2, rfl⟩
    rw [visitAll_cons]
    by_cases completed : v.ended = .completed
    · have unfolded : r.visits g (path :: rest) s = v :: r.visits g rest v.after := by
        simp only [visits]
        rw [if_pos completed]
      rw [if_pos completed, unfolded]
      obtain ⟨follows, all⟩ := inductionHypothesis v.after
      refine ⟨.next v completed follows, ?_⟩
      intro reached w member
      rcases List.mem_cons.mp member with rfl | member
      · exact completed
      · exact all reached w member
    · have unfolded : r.visits g (path :: rest) s = [v] := by
        simp only [visits]
        rw [if_neg completed]
      rw [if_neg completed, unfolded]
      exact ⟨.last v, fun reached => absurd reached completed⟩

/-- The paths that are visited are the first ones. -/
theorem visits_paths (g : Suggestor) (paths : List Text) (s : Session) :
    (r.visits g paths s).map Visit.path <+: paths := by
  induction paths generalizing s with
  | nil => exact List.prefix_rfl
  | cons path rest inductionHypothesis =>
    rw [visits]
    split
    · exact (List.prefix_cons_inj path).mpr (inductionHypothesis _)
    · exact ⟨rest, rfl⟩

/-- All paths are visited if all visits are complete. -/
theorem visits_paths_of_completed {g : Suggestor} {paths : List Text} {s : Session}
    (completed : ∀ v ∈ r.visits g paths s, v.ended = .completed) :
    (r.visits g paths s).map Visit.path = paths := by
  induction paths generalizing s with
  | nil => rfl
  | cons path rest inductionHypothesis =>
    rw [visits] at completed ⊢
    have here := completed _ List.mem_cons_self
    rw [if_pos here] at completed ⊢
    have further := inductionHypothesis fun v member => completed v (List.mem_cons_of_mem _ member)
    rw [List.map_cons, further]

theorem passVisits_eq {g : Suggestor} {s : Session} {paths : List Text}
    (listed : r.query.sortedPaths s.tree = .ok paths) : r.passVisits g s = r.visits g paths s := by
  rw [passVisits, listed]

theorem passVisits_follow (g : Suggestor) (s : Session) :
    Follows s (r.passVisits g s) (r.pass g s).1 ∧
      ((r.pass g s).2 = .completed → ∀ v ∈ r.passVisits g s, v.ended = .completed) := by
  rw [passVisits, pass]
  cases r.query.sortedPaths s.tree with
  | error fault => exact ⟨.none s, by simp⟩
  | ok paths => exact visits_follow g paths s

/-- The visits of all passes lead to where the passes end. -/
theorem passesVisits_follow (suggestors : List Suggestor) (s : Session) :
    Follows s (r.passesVisits suggestors s) (r.passes suggestors s).1 := by
  induction suggestors generalizing s with
  | nil => exact .none s
  | cons g rest inductionHypothesis =>
    obtain ⟨follows, all⟩ := r.passVisits_follow g s
    rw [passesVisits, passes_cons]
    split
    · rename_i completed
      exact follows.append (all completed) (inductionHypothesis _)
    · rw [List.append_nil]
      exact follows

/-- Summing up does not touch the tree. -/
theorem summarize_tree (r : Review) (s : Session) : (r.summarize s).1.tree = s.tree := by
  have remarked (s : Session) : (sayRemark r.remark s).1.tree = s.tree := by
    rw [sayRemark]
    split
    · cases r.remark <;> rfl
    · rfl
  rw [summarize]
  split
  · split
    · have said := remarked (s.sayError (Text.ofNat s.changes ++ " change(s) needed.").toList)
      dsimp only
      split
      · rename_i remark
        rw [remark] at said
        exact said
      · rename_i remark
        rw [remark] at said
        exact said
    · rfl
  · rfl

/-- Where the visits end is where the tree of the run ends. -/
theorem run_tree (r : Review) (s : Session) : (r.run s).1.tree = (r.sweep s).1.tree := by
  simp only [run]
  rcases r.sweep s with ⟨m, ended⟩
  cases ended with
  | completed => exact r.summarize_tree _
  | quit => rfl
  | failed failure => cases failure <;> rfl

/-- The history of a run leads from its start to its end; a line that is said at
the start does not count. -/
theorem history_follows (r : Review) (s : Session) :
    ∃ start final, s.Quiet start ∧ Follows start (r.history s) final ∧
      (r.run s).1.tree = final.tree := by
  rw [history, run_tree, sweep]
  split
  · exact ⟨s.say "searching...".toList, _, ⟨⟨rfl, rfl, rfl⟩, rfl⟩,
      passesVisits_follow r.suggestors _, rfl⟩
  · exact ⟨s, s, ⟨⟨rfl, rfl, rfl⟩, rfl⟩, .none s, rfl⟩

/-- A visit that is not complete ends the visits to files. -/
theorem visitAll_of_halted {g : Suggestor} {paths : List Text} {s : Session} {v : Visit r}
    (member : v ∈ r.visits g paths s) (halted : v.ended ≠ .completed) :
    r.visitAll g paths s = (v.after, v.ended) := by
  induction paths generalizing s with
  | nil => cases member
  | cons path rest inductionHypothesis =>
    rw [visits] at member
    rw [visitAll_cons]
    rcases List.mem_cons.mp member with rfl | member
    · rw [if_neg halted]
    · split at member
      · rename_i completed
        rw [if_pos completed]
        exact inductionHypothesis member
      · cases member

/-- A visit that is not complete ends all passes. -/
theorem passes_of_halted {suggestors : List Suggestor} {s : Session} {v : Visit r}
    (member : v ∈ r.passesVisits suggestors s) (halted : v.ended ≠ .completed) :
    r.passes suggestors s = (v.after, v.ended) := by
  induction suggestors generalizing s with
  | nil => cases member
  | cons g rest inductionHypothesis =>
    rw [passesVisits] at member
    rw [passes_cons]
    rcases List.mem_append.mp member with member | member
    · have passed : r.pass g s = (v.after, v.ended) := by
        rw [passVisits] at member
        rw [pass]
        cases listed : r.query.sortedPaths s.tree with
        | error fault =>
          rw [listed] at member
          cases member
        | ok paths =>
          rw [listed] at member
          exact visitAll_of_halted member halted
      rw [passed, if_neg halted]
    · split at member
      · rename_i completed
        rw [if_pos completed]
        exact inductionHypothesis member
      · cases member

/-- A run ends with its first visit that is not complete. -/
theorem sweep_of_halted {s : Session} {v : Visit r} (member : v ∈ r.history s)
    (halted : v.ended ≠ .completed) : r.sweep s = (v.after, v.ended) := by
  rw [history] at member
  rw [sweep]
  split at member
  · rename_i present
    rw [if_pos present]
    exact passes_of_halted member halted
  · cases member

/-- The visits of a pass are held with the suggestor of the pass. -/
theorem suggestor_of_mem_visits {g : Suggestor} {paths : List Text} {s : Session} {v : Visit r}
    (member : v ∈ r.visits g paths s) : v.suggestor = g := by
  induction paths generalizing s with
  | nil => cases member
  | cons path rest inductionHypothesis =>
    rw [visits] at member
    rcases List.mem_cons.mp member with rfl | member
    · rfl
    · split at member
      · exact inductionHypothesis member
      · cases member

theorem suggestor_of_mem_passesVisits {suggestors : List Suggestor} {s : Session} {v : Visit r}
    (member : v ∈ r.passesVisits suggestors s) : v.suggestor ∈ suggestors := by
  induction suggestors generalizing s with
  | nil => cases member
  | cons g rest inductionHypothesis =>
    rw [passesVisits, passVisits] at member
    rcases List.mem_append.mp member with member | member
    · split at member
      · cases member
      · rw [suggestor_of_mem_visits member]
        exact List.mem_cons_self
    · split at member
      · exact List.mem_cons_of_mem _ (inductionHypothesis member)
      · cases member

/-- The visits of a run are held with its suggestors. -/
theorem suggestor_of_mem_history {s : Session} {v : Visit r} (member : v ∈ r.history s) :
    v.suggestor ∈ r.suggestors := by
  rw [history] at member
  split at member
  · exact suggestor_of_mem_passesVisits member
  · cases member

end Emend.Review
