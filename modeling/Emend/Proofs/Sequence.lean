import Emend.Proofs.Outcomes
import Emend.Proofs.Persistence
import Emend.Proofs.Replay

/-!
# Runs in sequence

A run over two lists of suggestors, one after the other, is a run over the first
list and then a run over the second, which takes over the files, the input that is
left and whether everything is accepted. The counts of the two runs add up. If the
first run fails or is quit, it is the whole run.

The second run lists its files anew, and so does the next pass of a single run. A
second run also asks anew whether the start of the query is there; it is, because
what visits write leaves every path to a file or directory intact.
-/

namespace Emend.Review

variable {r : Review}

/-- A visit leaves the start of a query in place. -/
theorem Visit.targetExists (v : Visit r) (wet : r.dry = false) (handsOff : v.suggestor.HandsOff)
    {q : Query} (present : q.targetExists v.before.tree = true) :
    q.targetExists v.after.tree = true := by
  rcases v.failed_or_settled wet handsOff with ⟨_, unmoved⟩ | ⟨text, settled⟩
  · rw [unmoved.tree]
    exact present
  by_cases none : v.decisions.accepted = []
  · rw [(settled.commits.nothing none).1]
    exact present
  obtain ⟨updated, _, replaced, _⟩ := settled.commits.something none
  obtain ⟨location, bytes, mode, found, _⟩ := readText_eq_ok_iff_lookup.mp settled.read
  have read := (Tree.lookup_eq_some_iff _ _ _ _).mp found
  obtain ⟨directory, name, rewritten⟩ := Tree.overwritten_of_replace read replaced
  exact rewritten.targetExists present

theorem Follows.targetExists {s u : Session} {visits : List (Visit r)}
    (follows : Follows s visits u)
    (wet : r.dry = false) (handsOff : ∀ v ∈ visits, v.suggestor.HandsOff) {q : Query}
    (present : q.targetExists s.tree = true) : q.targetExists u.tree = true := by
  induction follows with
  | none s => exact present
  | last v => exact v.targetExists wet (handsOff v List.mem_cons_self) present
  | next v completed further inductionHypothesis =>
    apply inductionHypothesis
    · intro w member
      exact handsOff w (List.mem_cons_of_mem _ member)
    · exact v.targetExists wet (handsOff v List.mem_cons_self) present

/-- All passes leave the start of a query in place. -/
theorem passes_targetExists (wet : r.dry = false) {suggestors : List Suggestor}
    (handsOff : ∀ g ∈ suggestors, g.HandsOff) {s : Session} {q : Query}
    (present : q.targetExists s.tree = true) :
    q.targetExists (r.passes suggestors s).1.tree = true :=
  (passesVisits_follow suggestors s).targetExists wet
    (fun _ member => handsOff _ (suggestor_of_mem_passesVisits member)) present

/-- Passes over two lists, of which the second follows only a complete first. -/
theorem passes_append (first second : List Suggestor) (s : Session) :
    r.passes (first ++ second) s =
      if (r.passes first s).2 = .completed then r.passes second (r.passes first s).1
      else r.passes first s := by
  induction first generalizing s with
  | nil => rfl
  | cons g rest inductionHypothesis =>
    rw [List.cons_append, passes_cons, passes_cons]
    by_cases completed : (r.pass g s).2 = .completed
    · rw [if_pos completed, if_pos completed]
      exact inductionHypothesis _
    · rw [if_neg completed, if_neg completed, if_neg completed]

theorem sweep_asking_of_present (r : Review) (suggestors : List Suggestor) {s : Session}
    (present : r.query.targetExists s.tree = true) :
    (r.asking suggestors).sweep s =
      (r.asking suggestors).passes suggestors (s.say "searching...".toList) := if_pos present

theorem sweep_asking_of_missing (r : Review) (suggestors : List Suggestor) {s : Session}
    (missing : r.query.targetExists s.tree = false) :
    (r.asking suggestors).sweep s = (s, .failed (.missingTarget r.query.target)) :=
  if_neg (ne_true_of_eq_false missing)

/-- Up to the end of the first list, a run over two lists and one over the first
list are in step. -/
theorem first_passes_together (r : Review) (first second : List Suggestor) (s : Session) :
    Session.Together .none ((r.asking (first ++ second)).passes first s)
      ((r.asking first).passes first s) :=
  passes_together (r.alike_asking _ _) first (.refl s)

/-- A run over two lists that does not get to the second one. -/
theorem outcome_append_of_halted (r : Review) (wet : r.dry = false)
    (first second : List Suggestor) {s : Session}
    (halted : (r.asking first).ending s ≠ .completed) :
    (r.asking (first ++ second)).outcome s = (r.asking first).outcome s := by
  suffices both : Session.Together .none ((r.asking (first ++ second)).sweep s)
      ((r.asking first).sweep s) by
    have equal := outcome_eq_after (r.alike_asking (first ++ second) first) wet both
    rw [Outcome.after, Counts.none_add] at equal
    exact equal
  cases present : r.query.targetExists s.tree with
  | false =>
    rw [sweep_asking_of_missing r _ present, sweep_asking_of_missing r _ present]
    exact ⟨.refl s, rfl⟩
  | true =>
    rw [ending, sweep_asking_of_present r _ present] at halted
    have step := r.first_passes_together first second (s.say "searching...".toList)
    rw [sweep_asking_of_present r _ present, sweep_asking_of_present r _ present, passes_append,
      step.same, if_neg halted]
    exact step

/-- A run over two lists that gets to the second one. The session in which it
starts the second list has counted what the first run has counted, and else it is
the session of the second run. -/
theorem outcome_append_of_completed (r : Review) (wet : r.dry = false)
    {first : List Suggestor} (handsOff : ∀ g ∈ first, g.HandsOff) (second : List Suggestor)
    {s : Session} (completed : (r.asking first).ending s = .completed) :
    (r.asking (first ++ second)).outcome s =
      ((r.asking second).outcome ((r.asking first).run s).1.resumed).after
        ((r.asking first).outcome s).counts := by
  cases present : r.query.targetExists s.tree with
  | false =>
    rw [ending, sweep_asking_of_missing r _ present] at completed
    cases completed
  | true =>
    have swept := sweep_asking_of_present r first present
    rw [ending, swept] at completed
    have step := r.first_passes_together first second (s.say "searching...".toList)
    rcases reached : (r.asking first).passes first (s.say "searching...".toList) with ⟨m, ended⟩
    rw [reached] at swept completed step
    subst completed
    have left : (r.asking first).run s =
        ({ m.note "done".toList with phase := .complete }, .ok .success) := by
      simp only [run, swept, conclude, summarize]
      rw [if_neg (by simp [asking, wet])]
    have still : r.query.targetExists m.tree = true := by
      have kept := passes_targetExists (r := r.asking first) wet handsOff
        (s := s.say "searching...".toList) (q := r.query) present
      rw [reached] at kept
      exact kept
    have again : r.query.targetExists ((r.asking first).run s).1.resumed.tree = true := by
      rw [left]
      exact still
    have resumes :
        ((r.asking (first ++ second)).passes first (s.say "searching...".toList)).1.InStep
        m.counts (((r.asking first).run s).1.resumed.say "searching...".toList) := by
      rw [left]
      refine ⟨step.step.tree, step.step.answers, step.step.screen, ?_⟩
      rw [step.step.counts, Counts.none_add]
      rfl
    have counted : ((r.asking first).outcome s).counts = m.counts := by
      rw [outcome, left]
      rfl
    rw [counted]
    apply outcome_eq_after (r.alike_asking (first ++ second) second) wet
    rw [sweep_asking_of_present r _ present, sweep_asking_of_present r _ again, passes_append,
      step.same, if_pos rfl]
    exact passes_together (r.alike_asking _ _) second resumes

/-- A run over two lists of suggestors is one run after the other, unless the first
one fails or is quit. -/
theorem sequence_composes (r : Review) (wet : r.dry = false) {first : List Suggestor}
    (handsOff : ∀ g ∈ first, g.HandsOff) (second : List Suggestor) (s : Session) :
    ((r.asking first).ending s = .completed →
      (r.asking (first ++ second)).outcome s =
        ((r.asking second).outcome ((r.asking first).run s).1.resumed).after
          ((r.asking first).outcome s).counts) ∧
    ((r.asking first).ending s ≠ .completed →
      (r.asking (first ++ second)).outcome s = (r.asking first).outcome s) :=
  ⟨fun completed => outcome_append_of_completed r wet handsOff second completed,
    fun halted => outcome_append_of_halted r wet first second halted⟩

/-- A review of one file. -/
def singleReview : Review where
  query := .single ['a']
  suggestors := []

/-- One file with two characters. The input rejects two patches, takes one and
quits. -/
def singleSession : Session where
  tree := { entries := [([['a']], .file [49, 48] 0o600)] }
  console := { input := [.text ['n', '\n'], .text ['n', '\n'], .text ['y', '\n'],
    .text ['q', '\n']] }

/-- The first run rejects its patches and is complete; the second one goes on with
the input, takes a patch and is quit. -/
theorem digits_sequence_composes :
    (singleReview.dry = false ∧ ∀ g ∈ [Suggestor.twoDigits], g.HandsOff) ∧
      (singleReview.asking [.twoDigits]).ending singleSession = .completed ∧
      (singleReview.asking [.twoDigits, .twoDigits]).outcome singleSession =
        ((singleReview.asking [.twoDigits]).outcome
          ((singleReview.asking [.twoDigits]).run singleSession).1.resumed).after
            ((singleReview.asking [.twoDigits]).outcome singleSession).counts ∧
      ((singleReview.asking [.twoDigits, .twoDigits]).outcome singleSession).counts =
        ⟨4, 1, 1⟩ := by
  have handsOff : ∀ g ∈ [Suggestor.twoDigits], g.HandsOff := by
    intro g member
    rw [List.mem_singleton.mp member]
    exact Suggestor.twoDigits_handsOff
  have completed : (singleReview.asking [.twoDigits]).ending singleSession = .completed := by
    decide +kernel
  exact ⟨⟨rfl, handsOff⟩, completed,
    (sequence_composes singleReview rfl handsOff [.twoDigits] singleSession).1 completed,
    by decide +kernel⟩

end Emend.Review
