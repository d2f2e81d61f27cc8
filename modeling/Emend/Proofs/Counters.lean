import Emend.Proofs.ExitCodes
import Emend.Proofs.Steps

/-!
# What a run counts

A run counts the patches that are proposed to it, the patches that it commits and the
files that it writes. What there is to count can be read off the moments through which
the run has passed: a patch is drawn where it comes first in a stream, and accepted
patches are committed where the tree takes the file with them. The counters are the sizes
of these lists, at every moment and whatever goes wrong.

A patch is counted long before it is committed, and may never be. The patches that have
been committed, followed by those that are accepted for the file at hand, are a sublist of
those that were drawn. This carries the induction, and it orders the counters.
-/

namespace Emend

/-- No more files are written than patches are committed, and no more patches are committed
than proposed. -/
def Counts.Ordered (c : Counts) : Prop := c.written ≤ c.accepted ∧ c.accepted ≤ c.changes

theorem Counts.Ordered.add {a b : Counts} (first : a.Ordered) (second : b.Ordered) :
    (a + b).Ordered :=
  ⟨Nat.add_le_add first.1 second.1, Nat.add_le_add first.2 second.2⟩

/-- Accepted patches reach the file of a path: there are none, or they can be applied and the
tree takes the file. -/
def Session.takes (s : Session) (source : Source) (path : Text) (accepted : List Patch) : Bool :=
  match accepted, Patch.apply source.text accepted with
  | [], _ => true
  | _, .error _ => false
  | _, .ok text => (s.tree.replace path (Text.encode text)).isOk

namespace Review

/-- The patch that is drawn from a stream in the next step, unless it changes nothing. -/
def Moment.drawn (a : Moment) : Option Patch :=
  match a.task with
  | .offer _ (.propose p _) _ => if p.isNoop then none else some p
  | _ => none

/-- The patches that are committed in the next step. -/
def Moment.committed (a : Moment) : Option (List Patch) :=
  match a.task with
  | .commit v accepted _ => if a.session.takes v.source v.path accepted then some accepted else none
  | _ => none

/-- The patches that wait for a commit. The one that is decided on may be among them. -/
def Task.pending : Task → List Patch
  | .offer _ _ accepted => accepted
  | .decide _ p _ accepted => accepted ++ [p]
  | .commit _ accepted _ => accepted
  | _ => []

/-- The patches that were drawn in some moments. -/
def drawnIn (passed : List Moment) : List Patch := passed.filterMap Moment.drawn

/-- The lists of patches that were committed in some moments, one for each visit. -/
def committedIn (passed : List Moment) : List (List Patch) := passed.filterMap Moment.committed

/-- What there was to count in some moments: the patches drawn, the patches committed, and the
visits that committed any. -/
def tally (passed : List Moment) : Counts where
  changes := (drawnIn passed).length
  accepted := (committedIn passed).flatten.length
  written := (committedIn passed).countP fun accepted => !accepted.isEmpty

theorem tally_append (front back : List Moment) :
    tally (front ++ back) = tally front + tally back := by
  simp only [tally, drawnIn, committedIn, List.filterMap_append, List.flatten_append,
    List.length_append, List.countP_append]
  rfl

/-- A step has counted what it did, and what it committed or kept was there before. -/
structure Accounted (a b : Moment) : Prop where
  counts : b.session.counts = a.session.counts + tally [a]
  sublist : ((committedIn [a]).flatten ++ b.task.pending).Sublist (a.task.pending ++ drawnIn [a])

section Step

variable {r : Review}

/-- A step that draws and commits nothing need not count anything. -/
theorem accounted_of_idle {a b : Moment} (drawn : a.drawn = none) (committed : a.committed = none)
    (counts : b.session.counts = a.session.counts)
    (kept : b.task.pending.Sublist a.task.pending) : Accounted a b := by
  constructor
  · simp only [counts, tally, drawnIn, committedIn, List.filterMap_cons, drawn, committed]
    rfl
  · simpa [drawnIn, committedIn, drawn, committed] using kept

theorem stepVisit_accounted (g : Suggestor) (path : Text) (paths : List Text)
    (later : List Suggestor) (s : Session) :
    Accounted ⟨.visit g (path :: paths) later, s⟩ (stepVisit g path paths later s) := by
  rw [stepVisit]
  dsimp only
  split
  · exact accounted_of_idle rfl rfl rfl (.refl _)
  split <;> exact accounted_of_idle rfl rfl rfl (.refl _)

/-- A patch is counted as soon as it is drawn. -/
theorem stepOffer_accounted (v : Begun) (stream : Proposals) (accepted : List Patch)
    (s : Session) : Accounted ⟨.offer v stream accepted, s⟩ (r.stepOffer v stream accepted s) := by
  cases stream with
  | done =>
    rw [stepOffer]
    split
    · exact accounted_of_idle rfl rfl rfl (List.nil_sublist _)
    · exact accounted_of_idle rfl rfl rfl (.refl _)
  | fault fault => exact accounted_of_idle rfl rfl rfl (List.nil_sublist _)
  | stray type rest => exact accounted_of_idle rfl rfl rfl (List.nil_sublist _)
  | note record rest => exact accounted_of_idle rfl rfl rfl (.refl _)
  | act action rest =>
    rw [stepOffer]
    split
    · exact accounted_of_idle rfl rfl rfl (List.nil_sublist _)
    · exact accounted_of_idle rfl rfl rfl (.refl _)
  | propose p rest =>
    rw [stepOffer]
    split
    · rename_i same
      exact accounted_of_idle (if_pos same) rfl rfl (List.nil_sublist _)
    · rename_i differs
      have drawn : drawnIn [⟨.offer v (.propose p rest) accepted, s⟩] = [p] := by
        simp [drawnIn, Moment.drawn, differs]
      have counted : tally [⟨.offer v (.propose p rest) accepted, s⟩] = ⟨1, 0, 0⟩ := by
        rw [tally, drawn]
        rfl
      constructor
      · rw [counted]
        split <;> rfl
      · rw [drawn]
        split
        · exact List.sublist_append_left ..
        · exact .refl _

theorem counts_of_decide {p : Patch} {s m : Session} {result : Except Fault Decision}
    (decided : r.decide p s = (m, result)) : m.counts = s.counts := by
  have changes : m.changes = s.changes := by
    cases clear : r.obstacle p s.console.screen with
    | none =>
      obtain ⟨_, _, shown, changes, _⟩ := decide_of_shown clear
      cases decided.symm.trans shown
      exact changes
    | some fault =>
      obtain ⟨_, refused, shown⟩ := decide_of_obstacle clear
      cases decided.symm.trans refused
      exact shown.changes
  obtain ⟨unmoved, _⟩ := decide_spec decided
  rw [Session.counts, changes, unmoved.accepted, unmoved.written]
  rfl

/-- A patch that is decided on waits for the commit, or it is given up. -/
theorem stepDecide_accounted (v : Begun) (p : Patch) (stream : Proposals) (accepted : List Patch)
    (s : Session) :
    Accounted ⟨.decide v p stream accepted, s⟩ (r.stepDecide v p stream accepted s) := by
  rcases decided : r.decide p s with ⟨m, result⟩
  have counts := counts_of_decide decided
  rw [stepDecide, decided]
  cases result with
  | error fault => exact accounted_of_idle rfl rfl counts (List.nil_sublist _)
  | ok decision =>
    cases decision with
    | accept => exact accounted_of_idle rfl rfl counts (.refl _)
    | reject => exact accounted_of_idle rfl rfl counts (List.sublist_append_left ..)
    | acceptAll => exact accounted_of_idle rfl rfl counts (.refl _)
    | quit => exact accounted_of_idle rfl rfl counts (List.sublist_append_left ..)

/-- Patches that the tree takes are counted, and one file with them if there are any.
Otherwise nothing is counted. -/
theorem counts_of_commit {s m : Session} {source : Source} {path : Text} {accepted : List Patch}
    {failure : Option Failure} (done : s.commit source path accepted = (m, failure)) :
    s.takes source path accepted = failure.isNone ∧ m.counts = s.counts +
      if failure.isNone then
        ⟨0, accepted.length, [accepted].countP fun accepted => !accepted.isEmpty⟩ else .none := by
  simp only [Session.commit, Session.save, Session.takes] at done ⊢
  cases accepted with
  | nil =>
    cases done
    exact ⟨rfl, rfl⟩
  | cons p rest =>
    cases applied : Patch.apply source.text (p :: rest) with
    | error fault =>
      rw [applied] at done
      cases fault <;> cases done <;> exact ⟨rfl, rfl⟩
    | ok updated =>
      simp only [applied, Session.note, Session.record] at done ⊢
      cases replaced : s.tree.replace path (Text.encode updated) with
      | error fault =>
        simp only [replaced] at done
        cases done
        exact ⟨rfl, rfl⟩
      | ok tree =>
        simp only [replaced] at done
        cases done
        exact ⟨rfl, rfl⟩

/-- Patches are counted when they are committed, and are given up if they cannot be. -/
theorem stepCommit_accounted (v : Begun) (accepted : List Patch) (planned : VisitEnd)
    (s : Session) :
    Accounted ⟨.commit v accepted planned, s⟩ (stepCommit v accepted planned s) := by
  rcases done : s.commit v.source v.path accepted with ⟨m, result⟩
  obtain ⟨taken, counts⟩ := counts_of_commit done
  rw [stepCommit, done]
  cases result with
  | none =>
    have committed : committedIn [⟨.commit v accepted planned, s⟩] = [accepted] := by
      simp [committedIn, Moment.committed, taken]
    have counted : tally [⟨.commit v accepted planned, s⟩] =
        ⟨0, accepted.length, [accepted].countP fun accepted => !accepted.isEmpty⟩ := by
      rw [tally, committed, List.flatten_singleton]
      rfl
    dsimp only
    constructor
    · rw [counted]
      split <;> exact counts
    · rw [committed, List.flatten_singleton]
      split <;> simp [Task.pending, Begun.leave, drawnIn, Moment.drawn]
  | some failure =>
    exact accounted_of_idle rfl (if_neg (by simp [taken])) counts (List.nil_sublist _)

/-- Every step accounts for what it does. -/
theorem step_accounted (r : Review) (a : Moment) : Accounted a (r.step a) := by
  obtain ⟨task, s⟩ := a
  cases task with
  | search =>
    simp only [step]
    split <;> exact accounted_of_idle rfl rfl rfl (.refl _)
  | pass suggestors =>
    cases suggestors with
    | nil => exact accounted_of_idle rfl rfl rfl (.refl _)
    | cons g later =>
      simp only [step]
      split <;> exact accounted_of_idle rfl rfl rfl (.refl _)
  | visit g paths later =>
    cases paths with
    | nil => exact accounted_of_idle rfl rfl rfl (.refl _)
    | cons path paths => exact stepVisit_accounted ..
  | offer v stream accepted => exact stepOffer_accounted ..
  | decide v p stream accepted => exact stepDecide_accounted ..
  | commit v accepted planned => exact stepCommit_accounted ..
  | close ended => exact accounted_of_idle rfl rfl (r.conclude_silent s ended).counts (.refl _)
  | finished result => exact accounted_of_idle rfl rfl rfl (.refl _)

end Step

/-- The counters have counted what happened in the moments that have passed, and what was
committed or waits for it has been drawn. -/
structure Tallied (s : Session) (passed : List Moment) (a : Moment) : Prop where
  counts : a.session.counts = s.counts + tally passed
  sublist : ((committedIn passed).flatten ++ a.task.pending).Sublist (drawnIn passed)

/-- One step keeps the tally: what the step committed was waiting or has just been drawn. -/
theorem Tallied.step {s : Session} {passed : List Moment} {a b : Moment}
    (tallied : Tallied s passed a) (accounted : Accounted a b) : Tallied s (passed ++ [a]) b := by
  constructor
  · rw [accounted.counts, tallied.counts, tally_append, Counts.add_assoc]
  · rw [drawnIn, committedIn, List.filterMap_append, List.filterMap_append, List.flatten_append,
      List.append_assoc]
    have kept := accounted.sublist.append_left (committedIn passed).flatten
    rw [← List.append_assoc (committedIn passed).flatten a.task.pending] at kept
    exact kept.trans (tallied.sublist.append_right _)

/-- The induction is on the steps. -/
theorem Passes.tallied {r : Review} {s : Session} {passed : List Moment} {a : Moment}
    (passes : r.Passes ⟨.search, s⟩ passed a) : Tallied s passed a := by
  induction passes with
  | here => exact ⟨rfl, .refl _⟩
  | step _ inductionHypothesis => exact inductionHypothesis.step (step_accounted ..)

/-- Every list that is not empty has a member, so there are no more such lists than members. -/
theorem countP_le_length_flatten (lists : List (List Patch)) :
    (lists.countP fun list => !list.isEmpty) ≤ lists.flatten.length := by
  induction lists with
  | nil => exact Nat.le_refl 0
  | cons list lists inductionHypothesis =>
    rw [List.countP_cons, List.flatten_cons, List.length_append]
    cases list with
    | nil => simpa using inductionHypothesis
    | cons p rest =>
      simp only [List.isEmpty_cons, Bool.not_false, if_true, List.length_cons]
      omega

theorem Tallied.ordered {s : Session} {passed : List Moment} {a : Moment}
    (tallied : Tallied s passed a) : (tally passed).Ordered := by
  constructor
  · exact countP_le_length_flatten _
  · exact ((List.sublist_append_left ..).trans tallied.sublist).length_le

/-- What is counted as committed has been committed: the tree after the step has the file with
the patches applied. -/
theorem commits_of_committed {v : Begun} {accepted : List Patch} {planned : VisitEnd} {s : Session}
    (committed : (Moment.mk (.commit v accepted planned) s).committed = some accepted) :
    s.Commits v.source.text v.path accepted (stepCommit v accepted planned s).session := by
  rcases done : s.commit v.source v.path accepted with ⟨m, _ | failure⟩
  · have settled : settle v.source v.path accepted .completed s = (m, .completed) := by
      rw [settle, done]
    cases settle_concludes settled with
    | settled _ commits =>
      rw [stepCommit, done]
      dsimp only
      split
      · exact ⟨commits.nothing, commits.something, commits.counted⟩
      · exact commits
  · have refused : s.takes v.source v.path accepted = false := (counts_of_commit done).1
    simp [Moment.committed, refused] at committed

theorem execute_counts (r : Review) (mode : RunMode) (tree : Tree) (console : Console) :
    (r.execute mode tree console).1.counts = (r.run (mode.session tree console)).1.counts := by
  rcases ran : r.run (mode.session tree console) with ⟨s, fault | code⟩
  · rw [RunMode.session] at ran
    rw [execute, ran]
    rfl
  · rw [RunMode.session] at ran
    rw [execute, ran]

/-- The counters of a run are exact at every moment. They have grown by the number of patches
drawn that would change something, by the number of patches committed, and by the number of
visits that committed any. What was committed is in the tree, and it is a sublist of what was
drawn, so the counters stay ordered. The end of the run lies ahead of every moment, and a review
starts with nothing counted; so its counters are ordered at the end, also after a failure and
after the user quit. -/
theorem counters_exact (r : Review) :
    (∀ s passed a, r.Passes ⟨.search, s⟩ passed a →
      a.session.counts = s.counts + tally passed ∧
      (committedIn passed).flatten.Sublist (drawnIn passed) ∧
      (s.counts.Ordered → a.session.counts.Ordered) ∧
      r.Leads a ⟨.finished (r.run s).2, (r.run s).1⟩) ∧
    (∀ v accepted planned s, (Moment.mk (.commit v accepted planned) s).committed = some accepted →
      s.Commits v.source.text v.path accepted (r.step ⟨.commit v accepted planned, s⟩).session) ∧
    ∀ mode tree console, (RunMode.session mode tree console).counts = .none ∧
      (r.execute mode tree console).1.counts.Ordered := by
  refine ⟨?_, fun _ _ _ _ committed => commits_of_committed committed, ?_⟩
  · intro s passed a passes
    have tallied := passes.tallied
    refine ⟨tallied.counts, (List.sublist_append_left ..).trans tallied.sublist, ?_,
      passes.run_ahead⟩
    intro before
    rw [tallied.counts]
    exact before.add tallied.ordered
  · intro mode tree console
    obtain ⟨passed, passes⟩ := r.run_reached (mode.session tree console)
    have tallied := passes.tallied
    have counts : (r.run (mode.session tree console)).1.counts = tally passed :=
      tallied.counts.trans (Counts.none_add _)
    refine ⟨rfl, ?_⟩
    rw [execute_counts, counts]
    exact tallied.ordered

/-- A file is visited twice. The first visit rejects a patch and commits the other. In the second
one a patch is accepted and given up, because the next one changes nothing. -/
theorem twice_counters_exact :
    let r := singleReview.asking [.twoDigits, .twoDigits]
    let s := RunMode.session {} singleSession.tree
      { input := [.text ['n', '\n'], .text ['y', '\n'], .text ['y', '\n']] }
    let p : Patch := ⟨⟨['1', '0'], some "a"⟩, 0, 1, ['7'], by decide, by decide⟩
    let commit : Moment := ⟨.commit ⟨.twoDigits, p.source, ['a'], [], []⟩ [p] .completed, s⟩
    (∃ passed, r.Passes ⟨.search, s⟩ passed ⟨.finished (r.run s).2, (r.run s).1⟩ ∧
      codeOf (r.run s).2 = .software ∧ tally passed = ⟨3, 1, 1⟩ ∧
      (committedIn passed).flatten.Sublist (drawnIn passed) ∧
      s.counts.Ordered ∧ (r.run s).1.counts.Ordered) ∧
    commit.committed = some [p] ∧ s.Commits p.source.text ['a'] [p] (r.step commit).session := by
  intro r s p commit
  obtain ⟨exact, commits, _⟩ := counters_exact r
  obtain ⟨_, _, _, passed, passes⟩ := exact s [] _ .here
  obtain ⟨counts, drawn, ordered, _⟩ := exact s passed _ passes
  have fresh : s.counts.Ordered := ⟨Nat.le_refl 0, Nat.le_refl 0⟩
  have counted : (r.run s).1.counts = ⟨3, 1, 1⟩ := by decide +kernel
  have taken : s.takes p.source ['a'] [p] = true := by decide +kernel
  have committed : commit.committed = some [p] := if_pos taken
  refine ⟨⟨passed, passes, by decide +kernel, ?_, drawn, fresh, ordered fresh⟩, committed,
    commits _ _ _ _ committed⟩
  rw [← counted, ← Counts.none_add (tally passed)]
  exact counts.symm

end Review

end Emend
