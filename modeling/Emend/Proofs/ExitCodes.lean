import Emend.Command.Codemod
import Emend.Proofs.Sequence
import Emend.Proofs.Troubles

/-!
# Exit codes

The exit code of a review is decided by the first trouble that it meets. That is the
missing start of its query, or the first trouble with a file in the order of the
visits, or a listing of the files that is refused after complete passes. A review
that meets no trouble has an exit code for needed changes if it is dry and has
counted some, and otherwise it is a success; a review that is quit is one, too.

Faults that leave a run as errors make no exception, because they are given the exit
code of the other troubles that are not with the input. Every run ends with its phase
set to complete.
-/

namespace Emend

/-- The session in which a review is started. -/
def RunMode.session (mode : RunMode) (tree : Tree) (console : Console) : Session :=
  { tree, console
    log := { verbose := mode.verbose, ansi := console.screen.errorAnsi || mode.assumeTerminal }
    yesToAll := mode.yesToAll }

namespace Review

variable {r : Review}

/-- The first trouble with the file of a visit. -/
def Visit.trouble (v : Visit r) : Option Trouble :=
  r.fileTrouble v.before.console.screen v.suggestor v.path v.before.tree v.before.answers

/-- The first trouble of a run. -/
inductive Meets (r : Review) (s : Session) : Trouble → Prop where
  | target (missing : r.query.targetExists s.tree = false) : Meets r s .missingTarget
  | file {front back : List (Visit r)} {v : Visit r} {trouble : Trouble}
      (visited : r.history s = front ++ v :: back) (calm : ∀ w ∈ front, w.trouble = none)
      (met : v.trouble = some trouble) : Meets r s trouble
  | listing (present : r.query.targetExists s.tree = true) {done later : List Suggestor}
      {g : Suggestor} (order : r.suggestors = done ++ g :: later)
      (calm : ∀ v ∈ r.history s, v.trouble = none)
      (completed : (r.passes done (s.say "searching...".toList)).2 = .completed) {fault : Fault}
      (refused : r.query.sortedPaths (r.passes done (s.say "searching...".toList)).1.tree =
        .error fault) : Meets r s .unlistable

/-- A visit ends with the first trouble with its file. -/
theorem Visit.ended_trouble (v : Visit r) (typed : r.WellTyped) : v.ended.trouble = v.trouble := by
  rw [Visit.trouble, ← visit_trouble typed, v.held]

/-- The visits of a run decide what its first trouble with a file is. -/
theorem Meets.findSome? {s : Session} {trouble : Trouble} (meets : r.Meets s trouble) :
    (r.history s).findSome? Visit.trouble = some trouble ∨
      (r.history s).findSome? Visit.trouble = none ∧
        trouble = if r.query.targetExists s.tree then .unlistable else .missingTarget := by
  cases meets with
  | target missing =>
    have empty : r.history s = [] := by rw [history, missing, if_neg Bool.false_ne_true]
    rw [empty, missing]
    exact .inr ⟨rfl, rfl⟩
  | @file front back v trouble visited calm met =>
    exact .inl (List.findSome?_eq_some_iff.mpr ⟨front, v, back, visited, met, calm⟩)
  | listing present _ calm =>
    rw [present]
    exact .inr ⟨List.findSome?_eq_none_iff.mpr calm, rfl⟩

/-- No run meets two troubles first. -/
theorem Meets.unique {s : Session} {trouble trouble' : Trouble} (meets : r.Meets s trouble)
    (meets' : r.Meets s trouble') : trouble = trouble' := by
  rcases meets.findSome? with found | ⟨none, rfl⟩ <;>
    rcases meets'.findSome? with found' | ⟨none', rfl⟩
  · exact Option.some.inj (found.symm.trans found')
  · cases found.symm.trans none'
  · cases none.symm.trans found'
  · rfl

/-- Visiting files ends with one of the visits, unless it is complete. -/
theorem exists_of_visitAll_halted {g : Suggestor} {paths : List Text} {s : Session}
    (halted : (r.visitAll g paths s).2 ≠ .completed) :
    ∃ v ∈ r.visits g paths s, v.ended = (r.visitAll g paths s).2 := by
  induction paths generalizing s with
  | nil => exact absurd rfl halted
  | cons path rest inductionHypothesis =>
    rw [visitAll_cons] at halted ⊢
    rw [visits]
    by_cases completed : (r.visit g path s).2 = .completed
    · rw [if_pos completed] at halted ⊢
      obtain ⟨v, member, ended⟩ := inductionHypothesis halted
      dsimp only
      rw [if_pos completed]
      exact ⟨v, List.mem_cons_of_mem _ member, ended⟩
    · exact ⟨_, List.mem_cons_self, by rw [if_neg completed]⟩

/-- Passes that are not complete end with a visit, or with a listing that is refused
after other passes are complete. -/
theorem of_passes_halted {suggestors : List Suggestor} {s : Session}
    (halted : (r.passes suggestors s).2 ≠ .completed) :
    (∃ v ∈ r.passesVisits suggestors s, v.ended = (r.passes suggestors s).2) ∨
      ((∀ v ∈ r.passesVisits suggestors s, v.ended = .completed) ∧
        ∃ done g later fault, suggestors = done ++ g :: later ∧
          (r.passes done s).2 = .completed ∧
          r.query.sortedPaths (r.passes done s).1.tree = .error fault ∧
          (r.passes suggestors s).2 = .failed (.unforeseen fault)) := by
  induction suggestors generalizing s with
  | nil => exact absurd rfl halted
  | cons g rest inductionHypothesis =>
    rw [passes_cons] at halted ⊢
    rw [passesVisits]
    by_cases completed : (r.pass g s).2 = .completed
    · rw [if_pos completed] at halted ⊢
      rw [if_pos completed]
      rcases inductionHypothesis halted with
        ⟨v, member, ended⟩ | ⟨all, done, g', later, fault, rfl, before, refused, ended⟩
      · exact .inl ⟨v, List.mem_append_right _ member, ended⟩
      · refine .inr ⟨?_, g :: done, g', later, fault, rfl, ?_, ?_, ended⟩
        · intro v member
          rcases List.mem_append.mp member with member | member
          · exact (r.passVisits_follow g s).2 completed v member
          · exact all v member
        · rw [passes_cons, if_pos completed]
          exact before
        · rw [passes_cons, if_pos completed]
          exact refused
    · rw [if_neg completed] at halted ⊢
      rw [if_neg completed, List.append_nil, passVisits]
      rw [pass] at completed ⊢
      cases listed : r.query.sortedPaths s.tree with
      | error fault => exact .inr ⟨by simp, [], g, rest, fault, rfl, rfl, listed, rfl⟩
      | ok paths =>
        rw [listed] at completed
        exact .inl (exists_of_visitAll_halted completed)

/-- Before any visit of a run there are complete visits only. -/
theorem completed_before {s : Session} {front back : List (Visit r)} {v : Visit r}
    (visited : r.history s = front ++ v :: back) : ∀ w ∈ front, w.ended = .completed := by
  obtain ⟨_, _, _, follows, _⟩ := r.history_follows s
  rw [visited] at follows
  exact follows.split.2.1

/-- A complete visit has met no trouble. -/
theorem Visit.calm_of_completed {v : Visit r} (typed : r.WellTyped)
    (completed : v.ended = .completed) : v.trouble = none := by
  rw [← v.ended_trouble typed, completed]
  rfl

/-- A run that fails has met a trouble of the exit code of the failure. -/
theorem meets_of_failed (typed : r.WellTyped) {s : Session} {failure : Failure}
    (failed : (r.sweep s).2 = .failed failure) :
    ∃ trouble, r.Meets s trouble ∧ trouble.exitCode = failure.exitCode := by
  cases present : r.query.targetExists s.tree with
  | false =>
    rw [sweep, present, if_neg (by simp)] at failed
    cases failed
    exact ⟨.missingTarget, .target present, rfl⟩
  | true =>
    have history : r.history s = r.passesVisits r.suggestors (s.say "searching...".toList) :=
      if_pos present
    rw [sweep, if_pos present] at failed
    have halted : (r.passes r.suggestors (s.say "searching...".toList)).2 ≠ .completed := by
      rw [failed]
      simp
    rcases of_passes_halted halted with
      ⟨v, member, ended⟩ | ⟨all, done, g, later, fault, order, completed, refused, ended⟩
    · rw [← history] at member
      obtain ⟨front, back, visited⟩ := List.append_of_mem member
      have calm : ∀ w ∈ front, w.trouble = none := fun w among =>
        w.calm_of_completed typed (completed_before visited w among)
      have met : v.trouble = some failure.trouble := by
        rw [← v.ended_trouble typed, ended, failed]
        rfl
      exact ⟨failure.trouble, .file visited calm met, failure.exitCode_trouble⟩
    · rw [failed] at ended
      cases ended
      rw [← history] at all
      exact ⟨.unlistable, .listing present order (fun v member =>
        v.calm_of_completed typed (all v member)) completed refused, rfl⟩

/-- A run that meets a trouble fails with the exit code of the trouble. -/
theorem failed_of_meets (typed : r.WellTyped) {s : Session} {trouble : Trouble}
    (meets : r.Meets s trouble) :
    ∃ failure, (r.sweep s).2 = .failed failure ∧ failure.exitCode = trouble.exitCode := by
  cases meets with
  | target missing =>
    rw [sweep, missing, if_neg (by simp)]
    exact ⟨_, rfl, rfl⟩
  | @file front back v trouble visited calm met =>
    have member : v ∈ r.history s := by simp [visited]
    rw [← v.ended_trouble typed] at met
    cases ended : v.ended with
    | completed =>
      rw [ended] at met
      cases met
    | quit =>
      rw [ended] at met
      cases met
    | failed failure =>
      rw [ended] at met
      cases met
      rw [sweep_of_halted member (by simp [ended])]
      exact ⟨failure, ended, failure.exitCode_trouble.symm⟩
  | @listing present done later g order calm completed fault refused =>
    rw [sweep, if_pos present, order, passes_append, if_pos completed, passes_cons, pass, refused]
    exact ⟨.unforeseen fault, rfl, rfl⟩

/-- In a dry run nobody quits. -/
theorem offer_ne_quit (dry : r.dry = true) (label : String) (source : Source) (path : Text)
    (stream : Proposals) (accepted : List Patch) (s : Session) :
    (r.offer label source path stream accepted s).2 ≠ .quit := by
  induction stream generalizing s with
  | done => simp [offer, dry]
  | fault fault => simp [offer]
  | stray type rest inductionHypothesis => simp [offer]
  | note record rest inductionHypothesis => exact inductionHypothesis _
  | act action rest inductionHypothesis =>
    rw [offer]
    split
    · simp
    · exact inductionHypothesis _
  | propose p rest inductionHypothesis =>
    rw [offer]
    split
    · simp
    · exact inductionHypothesis _

theorem Visit.ne_quit (v : Visit r) (dry : r.dry = true) : v.ended ≠ .quit := by
  have ended : v.ended = (r.visit v.suggestor v.path v.before).2 := by rw [v.held]
  rw [ended, visit]
  dsimp only
  split
  · simp
  split
  · simp
  · simp
  · exact offer_ne_quit dry _ _ _ _ _ _

theorem sweep_ne_quit (dry : r.dry = true) (s : Session) : (r.sweep s).2 ≠ .quit := by
  intro quit
  rw [sweep] at quit
  split at quit
  · have halted : (r.passes r.suggestors (s.say "searching...".toList)).2 ≠ .completed := by
      rw [quit]
      simp
    rcases of_passes_halted halted with ⟨v, _, ended⟩ | ⟨_, _, _, _, _, _, _, _, ended⟩
    · exact v.ne_quit dry (ended.trans quit)
    · cases ended.symm.trans quit
  · cases quit

/-- The exit code for the result of a run: an error that leaves the run has one, too. -/
def codeOf : Except Fault ExitCode → ExitCode
  | .ok code => code
  | .error _ => .software

/-- What a review reports is what its run says. -/
theorem execute_eq_run (r : Review) (mode : RunMode) (tree : Tree) (console : Console) :
    (r.execute mode tree console).2 = codeOf (r.run (mode.session tree console)).2 ∧
      (r.execute mode tree console).1.changes = (r.run (mode.session tree console)).1.changes ∧
      (r.execute mode tree console).1.phase = (r.run (mode.session tree console)).1.phase := by
  rcases ran : r.run (mode.session tree console) with ⟨s, fault | code⟩
  · rw [RunMode.session] at ran
    simp [execute, ran, codeOf]
  · rw [RunMode.session] at ran
    simp [execute, ran, codeOf]

/-- A failure decides the exit code, whether it is reported or leaves the run. -/
theorem codeOf_failed {s : Session} {failure : Failure}
    (failed : (r.sweep s).2 = .failed failure) : codeOf (r.run s).2 = failure.exitCode := by
  rcases swept : r.sweep s with ⟨m, ended⟩
  rw [swept] at failed
  cases failed
  simp only [run, swept]
  cases failure <;> rfl

theorem codeOf_quit {s : Session} (quit : (r.sweep s).2 = .quit) :
    codeOf (r.run s).2 = .success := by
  rcases swept : r.sweep s with ⟨m, ended⟩
  rw [swept] at quit
  cases quit
  simp only [run, swept]
  rfl

/-- A complete run has an exit code of its own only if it is dry and has counted
changes. -/
theorem codeOf_completed (typed : r.WellTyped) {s : Session}
    (completed : (r.sweep s).2 = .completed) :
    codeOf (r.run s).2 =
      if r.dry = true ∧ 0 < (r.sweep s).1.changes then .changesNeeded else .success := by
  rcases swept : r.sweep s with ⟨m, ended⟩
  rw [swept] at completed
  cases completed
  have remarked (u : Session) : (sayRemark r.remark u).2 = none := by
    rw [sayRemark]
    rcases typed.remark with null | ⟨t, text⟩
    · rw [null]
      rfl
    · rw [text]
      split <;> rfl
  simp only [run, swept, conclude, summarize]
  cases r.dry with
  | false => rfl
  | true =>
    by_cases counted : 0 < m.changes
    · have noted : 0 < (m.note "done".toList).changes := counted
      rw [if_pos rfl, if_pos noted, if_pos ⟨rfl, counted⟩]
      have said := remarked ((m.note "done".toList).sayError
        (Text.ofNat (m.note "done".toList).changes ++ " change(s) needed.").toList)
      rcases remark : sayRemark r.remark ((m.note "done".toList).sayError
        (Text.ofNat (m.note "done".toList).changes ++ " change(s) needed.").toList) with ⟨u, fault⟩
      rw [remark] at said
      cases said
      rfl
    · have noted : ¬ 0 < (m.note "done".toList).changes := counted
      rw [if_pos rfl, if_neg noted, if_neg (fun both => counted both.2)]
      rfl

/-- The first trouble decides the exit code. -/
theorem codeOf_of_meets (typed : r.WellTyped) {s : Session} {trouble : Trouble}
    (meets : r.Meets s trouble) : codeOf (r.run s).2 = trouble.exitCode := by
  obtain ⟨failure, failed, code⟩ := failed_of_meets typed meets
  rw [codeOf_failed failed, code]

/-- Without any trouble the changes that a dry run counts decide the exit code. -/
theorem codeOf_of_calm (typed : r.WellTyped) {s : Session} (calm : ∀ trouble, ¬ r.Meets s trouble) :
    codeOf (r.run s).2 =
      if r.dry = true ∧ 0 < (r.sweep s).1.changes then .changesNeeded else .success := by
  cases ended : (r.sweep s).2 with
  | completed => exact codeOf_completed typed ended
  | quit =>
    rw [codeOf_quit ended, if_neg]
    rintro ⟨dry, -⟩
    exact sweep_ne_quit dry s ended
  | failed failure =>
    obtain ⟨trouble, meets, -⟩ := meets_of_failed typed ended
    exact absurd meets (calm trouble)

theorem noInput_iff (typed : r.WellTyped) (s : Session) :
    codeOf (r.run s).2 = .noInput ↔
      r.Meets s .missingTarget ∨ r.Meets s .unreadable ∨ r.Meets s .undecodable := by
  constructor
  · intro code
    by_cases met : ∃ trouble, r.Meets s trouble
    · obtain ⟨trouble, meets⟩ := met
      rw [codeOf_of_meets typed meets] at code
      cases trouble with
      | missingTarget => exact .inl meets
      | unreadable => exact .inr (.inl meets)
      | undecodable => exact .inr (.inr meets)
      | _ => cases code
    · rw [codeOf_of_calm typed (not_exists.mp met)] at code
      split at code <;> cases code
  · rintro (meets | meets | meets) <;> exact codeOf_of_meets typed meets

theorem software_iff (typed : r.WellTyped) (s : Session) :
    codeOf (r.run s).2 = .software ↔
      ∃ trouble, r.Meets s trouble ∧ trouble ∉ [.missingTarget, .unreadable, .undecodable] := by
  constructor
  · intro code
    by_cases met : ∃ trouble, r.Meets s trouble
    · obtain ⟨trouble, meets⟩ := met
      rw [codeOf_of_meets typed meets] at code
      refine ⟨trouble, meets, ?_⟩
      cases trouble <;> first | decide | cases code
    · rw [codeOf_of_calm typed (not_exists.mp met)] at code
      split at code <;> cases code
  · rintro ⟨trouble, meets, other⟩
    rw [codeOf_of_meets typed meets]
    cases trouble <;> first | rfl | exact absurd (by decide) other

/-- A run without trouble has neither of the exit codes for troubles. -/
theorem calm_of_codeOf (typed : r.WellTyped) {s : Session}
    (code : codeOf (r.run s).2 = .changesNeeded ∨ codeOf (r.run s).2 = .success) :
    ∀ trouble, ¬ r.Meets s trouble := by
  intro trouble meets
  rw [codeOf_of_meets typed meets] at code
  cases trouble <;> simp [Trouble.exitCode] at code

theorem changesNeeded_iff (typed : r.WellTyped) (s : Session) :
    codeOf (r.run s).2 = .changesNeeded ↔
      (∀ trouble, ¬ r.Meets s trouble) ∧ r.dry = true ∧ 0 < (r.sweep s).1.changes := by
  constructor
  · intro code
    have calm := calm_of_codeOf typed (.inl code)
    rw [codeOf_of_calm typed calm] at code
    split at code
    · rename_i needed
      exact ⟨calm, needed⟩
    · cases code
  · rintro ⟨calm, needed⟩
    rw [codeOf_of_calm typed calm, if_pos needed]

theorem success_iff (typed : r.WellTyped) (s : Session) :
    codeOf (r.run s).2 = .success ↔
      (∀ trouble, ¬ r.Meets s trouble) ∧ ¬ (r.dry = true ∧ 0 < (r.sweep s).1.changes) := by
  constructor
  · intro code
    have calm := calm_of_codeOf typed (.inr code)
    rw [codeOf_of_calm typed calm] at code
    split at code
    · cases code
    · rename_i spare
      exact ⟨calm, spare⟩
  · rintro ⟨calm, spare⟩
    rw [codeOf_of_calm typed calm, if_neg spare]

/-- No two exit codes have one number. -/
theorem number_eq_iff (code code' : ExitCode) : code.number = code'.number ↔ code = code' := by
  cases code <;> cases code' <;> decide

/-- The exit code of a review is decided by its first trouble: it is 66 if that is a
missing target or a listed file that cannot be read or is no text, and 70 if it is
any other, among them a patch that cannot be shown for the digits of a number. Without
trouble it is 1 for a dry run with changes, and 0 otherwise. There is at most one first
trouble. All runs end with their phase set to complete, also those that an error leaves. -/
theorem exit_code_classified (r : Review) (mode : RunMode) (tree : Tree) (console : Console) :
    let s := mode.session tree console
    let ended := r.execute mode tree console
    (∀ s, (r.run s).1.phase = .complete) ∧ ended.1.phase = .complete ∧
      (∀ first second, r.Meets s first → r.Meets s second → first = second) ∧
      (r.WellTyped →
        (ended.2.number = 66 ↔
          r.Meets s .missingTarget ∨ r.Meets s .unreadable ∨ r.Meets s .undecodable) ∧
        (ended.2.number = 70 ↔ ∃ trouble, r.Meets s trouble ∧
          trouble ∉ [.missingTarget, .unreadable, .undecodable]) ∧
        (ended.2.number = 1 ↔
          (∀ trouble, ¬ r.Meets s trouble) ∧ r.dry = true ∧ 0 < ended.1.changes) ∧
        (ended.2.number = 0 ↔
          (∀ trouble, ¬ r.Meets s trouble) ∧ ¬ (r.dry = true ∧ 0 < ended.1.changes))) := by
  obtain ⟨code, changes, phase⟩ := r.execute_eq_run mode tree console
  have silent := r.run_silent (mode.session tree console)
  refine ⟨fun _ => rfl, phase, fun _ _ => Meets.unique, ?_⟩
  intro typed
  simp only [code, changes, silent.changes]
  have numbered (code' : ExitCode) :=
    number_eq_iff (codeOf (r.run (mode.session tree console)).2) code'
  exact ⟨(numbered .noInput).trans (noInput_iff typed _),
    (numbered .software).trans (software_iff typed _),
    (numbered .changesNeeded).trans (changesNeeded_iff typed _),
    (numbered .success).trans (success_iff typed _)⟩

/-- One file, whose second character is the digit that is proposed for it. -/
def eighteenTree : Tree := { entries := [([['a']], .file [49, 56] 0o600)] }

/-- The second patch changes nothing. Whoever quits at the first one does not meet it
and succeeds; whoever goes on fails. -/
theorem eighteen_exit_code_classified :
    let r := singleReview.asking [.twoDigits]
    let quitting : Console := { input := [.text ['q', '\n']] }
    let rejecting : Console := { input := [.text ['n', '\n']] }
    r.WellTyped ∧ (r.execute {} eighteenTree quitting).2.number = 0 ∧
      (∀ trouble, ¬ r.Meets (RunMode.session {} eighteenTree quitting) trouble) ∧
      (r.execute {} eighteenTree rejecting).2.number = 70 ∧
      ∃ trouble, r.Meets (RunMode.session {} eighteenTree rejecting) trouble ∧
        trouble ∉ [.missingTarget, .unreadable, .undecodable] := by
  intro r quitting rejecting
  have typed : r.WellTyped := ⟨⟨2, rfl⟩, ⟨5, rfl⟩, ⟨10, rfl⟩, ⟨10, rfl⟩, .inl rfl⟩
  have success : (r.execute {} eighteenTree quitting).2.number = 0 := by decide +kernel
  have failure : (r.execute {} eighteenTree rejecting).2.number = 70 := by decide +kernel
  have calm := (exit_code_classified r {} eighteenTree quitting).2.2.2 typed
  have met := (exit_code_classified r {} eighteenTree rejecting).2.2.2 typed
  exact ⟨typed, success, (calm.2.2.2.mp success).1, failure, met.2.1.mp failure⟩

/-- A review of one file that has some number of lines for a diff. -/
def fallingBack (lines : Int) : Review :=
  { singleReview.asking [.twoDigits] with config := { fallbackLines := .int lines } }

theorem fallingBack_wellTyped (lines : Int) : (fallingBack lines).WellTyped :=
  ⟨⟨2, rfl⟩, ⟨5, rfl⟩, ⟨lines, rfl⟩, ⟨10, rfl⟩, .inl rfl⟩

/-- If the number of lines cannot be written, the first patch is not shown. -/
theorem fallingBack_meets {lines : Int} (long : Text.isWritable lines = false) :
    (fallingBack lines).Meets (RunMode.session {} eighteenTree {}) .unshowable := by
  have unsorted : (fallingBack lines).query.paths
      (RunMode.session {} eighteenTree {}).tree = .ok [['a']] := rfl
  have listed : (fallingBack lines).query.sortedPaths
      (RunMode.session {} eighteenTree {}).tree = .ok [['a']] := by
    rw [Query.sortedPaths, unsorted]
    simp [Except.map]
  have only : (fallingBack lines).suggestors = [.twoDigits] := rfl
  have read : readText eighteenTree ['a'] = .ok ['1', '8'] := by decide +kernel
  obtain ⟨p, rest, proposed, differs⟩ : ∃ p rest,
      Suggestor.twoDigits.proposals ⟨['1', '8'], some "a"⟩ = .propose p rest ∧
        p.isNoop = false := ⟨_, _, rfl, by decide⟩
  have hidden : (fallingBack lines).hides {} p = true := by
    have written : (fallingBack lines).diffLines {} = lines := rfl
    have wet : (fallingBack lines).dry = false := rfl
    simp [hides, wet, shownNumbers, written, long]
  have met : (fallingBack lines).fileTrouble {} .twoDigits ['a'] eighteenTree
      (RunMode.session {} eighteenTree {}).answers = some .unshowable := by
    have skipped : Suggestor.twoDigits.skips ['1', '8'] = .ok false := rfl
    simp only [fileTrouble, read, skipped]
    exact proposed ▸ streamTrouble_propose_hidden rfl differs hidden _ _ _ _ _ _
  have found : ((fallingBack lines).history (RunMode.session {} eighteenTree {})).findSome?
      Visit.trouble = some .unshowable := by
    rw [history_eq_visits only listed, visits, List.findSome?_cons_of_isSome]
    · exact met
    · exact congrArg Option.isSome met
  obtain ⟨front, v, back, visited, met, calm⟩ := List.findSome?_eq_some_iff.mp found
  exact .file visited calm met

/-- With too many digits in the number of lines for a diff a review ends with 70, and nothing else
is the matter than that the first patch cannot be shown. -/
theorem long_fallback_unshowable :
    let r := fallingBack (Nat.pow 10 Text.maxDigits : Nat)
    r.WellTyped ∧ (r.execute {} eighteenTree {}).2.number = 70 ∧
      ∀ trouble, r.Meets (RunMode.session {} eighteenTree {}) trouble → trouble = .unshowable := by
  have long : Text.isWritable (Nat.pow 10 Text.maxDigits : Nat) = false :=
    (Text.isWritable_eq_false_iff _).mpr (Nat.le_of_eq (Int.natAbs_natCast _).symm)
  generalize Nat.pow 10 Text.maxDigits = lines at long
  have typed := fallingBack_wellTyped lines
  have meets := fallingBack_meets long
  refine ⟨typed, ?_, fun _ first => first.unique meets⟩
  rw [(execute_eq_run _ _ _ _).1, codeOf_of_meets typed meets]
  rfl

end Review

end Emend
