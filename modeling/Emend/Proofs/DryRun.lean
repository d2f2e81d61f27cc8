import Emend.Proofs.Outcomes

/-!
# Dry runs

A dry run only counts. It leaves the tree, the input and the choice to accept
everything as they are and commits nothing, wherever it ends. Since no visit changes
what a later one reads, a dry run is complete exactly if nothing is at fault in the
files as they were at the start, and then it has counted the patches that the
suggestors have for these files.
-/

namespace Emend

/-- Nothing in a stream is at fault: it comes to its end, and every patch would
change something. -/
def Proposals.Sound (stream : Proposals) : Prop :=
  (stream.harvest {}).fault = none ∧ ∀ p ∈ (stream.harvest {}).patches, p.isNoop = false

namespace Suggestor

/-- The patches that a suggestor has for a file. There are none for a file that it
skips or that cannot be read. -/
def patchesAt (g : Suggestor) (t : Tree) (path : Text) : List Patch :=
  match Review.readText t path with
  | .ok text => g.patches path text
  | .error _ => []

/-- A file can be read, and the suggestor skips it or is not at fault. -/
def SoundAt (g : Suggestor) (t : Tree) (path : Text) : Prop :=
  ∃ text, Review.readText t path = .ok text ∧
    (g.skips text = .ok true ∨
      g.skips text = .ok false ∧ (g.proposals ⟨text, some (String.ofList path)⟩).Sound)

/-- The patches that a suggestor has for files. -/
def patchesFor (g : Suggestor) (t : Tree) (paths : List Text) : List Patch :=
  paths.flatMap (g.patchesAt t)

end Suggestor

namespace Review

variable {r : Review}

/-- Coming to a decision counts nothing. -/
theorem decide_changes (r : Review) (p : Patch) (s : Session) :
    (r.decide p s).1.changes = s.changes := by
  cases obstructed : r.obstacle p s.console.screen with
  | some fault =>
    obtain ⟨m, decided, shown⟩ := decide_of_obstacle obstructed
    rw [decided]
    exact shown.changes
  | none =>
    obtain ⟨m, decision, decided, changes, _⟩ := decide_of_shown obstructed
    rw [decided]
    exact changes

/-- Settling ends as planned or fails. -/
theorem settle_ended (source : Source) (path : Text) (accepted : List Patch)
    (planned : VisitEnd) (s : Session) :
    (settle source path accepted planned s).2 = planned ∨
      ∃ failure, (settle source path accepted planned s).2 = .failed failure := by
  rw [settle]
  rcases s.commit source path accepted with ⟨m, _ | failure⟩
  · exact .inl rfl
  · exact .inr ⟨failure, rfl⟩

/-- The end of a stream counts no patch. -/
theorem offer_done_changes (r : Review) (label : String) (source : Source) (path : Text)
    (accepted : List Patch) (s : Session) :
    (r.offer label source path .done accepted s).1.changes = s.changes := by
  have settled := (settle_keeps source path accepted .completed s).1
  rw [offer]
  split
  · rfl
  rcases ended : settle source path accepted .completed s with ⟨m, _ | _ | _⟩ <;>
    rw [ended] at settled <;> exact settled

/-- A stream that is gone through to its end is not at fault, and all its patches
have been counted. This holds of every run, dry or not. -/
theorem offer_completed {label : String} {source : Source} {path : Text} {stream : Proposals}
    (handsOff : stream.HandsOff) {accepted : List Patch} {s : Session}
    (completed : (r.offer label source path stream accepted s).2 = .completed) :
    stream.Sound ∧ (r.offer label source path stream accepted s).1.changes =
      s.changes + (stream.harvest {}).patches.length := by
  induction stream generalizing accepted s with
  | done =>
    exact ⟨⟨rfl, by simp [Proposals.harvest]⟩, r.offer_done_changes label source path accepted s⟩
  | fault fault => cases completed
  | stray type rest inductionHypothesis => cases completed
  | act action rest inductionHypothesis => exact handsOff.elim
  | note record rest inductionHypothesis => exact inductionHypothesis handsOff completed
  | propose p rest inductionHypothesis =>
    -- The first patch is counted, and the others are those of the rest.
    have further {accepted : List Patch} {m : Session} (counted : m.changes = s.changes + 1)
        (differs : p.isNoop = false)
        (completed : (r.offer label source path rest accepted m).2 = .completed) :
        (Proposals.propose p rest).Sound ∧ (r.offer label source path rest accepted m).1.changes =
          s.changes + ((Proposals.propose p rest).harvest {}).patches.length := by
      obtain ⟨⟨ends, effective⟩, total⟩ := inductionHypothesis handsOff completed
      refine ⟨⟨ends, ?_⟩, ?_⟩
      · intro q member
        rcases List.mem_cons.mp member with rfl | member
        · exact differs
        · exact effective q member
      · rw [total, counted]
        simp only [Proposals.harvest, List.length_cons]
        omega
    simp only [offer] at completed ⊢
    split at completed
    · cases completed
    rename_i differs
    have differs : p.isNoop = false := by simpa using differs
    rw [if_neg (by simp [differs])]
    split at completed
    · rename_i dry
      rw [if_pos dry]
      exact further rfl differs completed
    rename_i wet
    rw [if_neg wet]
    have counted := r.decide_changes p { s with changes := s.changes + 1 }
    rcases decided : r.decide p { s with changes := s.changes + 1 } with ⟨m, result⟩
    rw [decided] at counted completed
    cases result with
    | error fault => cases completed
    | ok decision =>
      cases decision with
      | quit =>
        rcases settle_ended source path accepted .quit m with quit | ⟨failure, failed⟩
        · cases quit.symm.trans completed
        · cases failed.symm.trans completed
      | reject => exact further counted differs completed
      | accept => exact further counted differs completed
      | acceptAll => exact further counted differs completed

/-- A visit that is complete was not at fault, and it has counted all patches. -/
theorem visit_completed {g : Suggestor} (handsOff : g.HandsOff) {path : Text} {s : Session}
    (completed : (r.visit g path s).2 = .completed) :
    g.SoundAt s.tree path ∧
      (r.visit g path s).1.changes = s.changes + (g.patchesAt s.tree path).length := by
  have noted : (s.note ("file: ".toList ++ path)).tree = s.tree := rfl
  simp only [visit, noted] at completed ⊢
  simp only [Suggestor.SoundAt, Suggestor.patchesAt]
  cases read : readText s.tree path with
  | error fault =>
    rw [read] at completed
    cases completed
  | ok text =>
    simp only [read] at completed ⊢
    simp only [Suggestor.patches]
    cases skip : g.skips text with
    | error fault =>
      rw [skip] at completed
      cases completed
    | ok skipped =>
      cases skipped with
      | true => exact ⟨⟨text, rfl, .inl skip⟩, rfl⟩
      | false =>
        simp only [skip] at completed ⊢
        obtain ⟨sound, counted⟩ := offer_completed (handsOff _) completed
        exact ⟨⟨text, rfl, .inr ⟨skip, sound⟩⟩, counted⟩

/-- Going through proposals in a dry run. Nothing is read or committed, the user
cannot quit, and nothing but a fault of the stream keeps it from its end. -/
theorem dry_offer (dry : r.dry = true) (label : String) (source : Source) (path : Text)
    {stream : Proposals} (handsOff : stream.HandsOff) (accepted : List Patch) (s : Session) :
    s.Quiet (r.offer label source path stream accepted s).1 ∧
      (r.offer label source path stream accepted s).2 ≠ .quit ∧
      (stream.Sound → (r.offer label source path stream accepted s).2 = .completed) := by
  induction stream generalizing accepted s with
  | done =>
    rw [offer, if_pos dry]
    exact ⟨⟨⟨rfl, rfl, rfl⟩, rfl⟩, by simp, fun _ => rfl⟩
  | fault fault =>
    refine ⟨⟨⟨rfl, rfl, rfl⟩, rfl⟩, by simp [offer], ?_⟩
    rintro ⟨ends, _⟩
    cases ends
  | stray type rest inductionHypothesis =>
    refine ⟨⟨⟨rfl, rfl, rfl⟩, rfl⟩, by simp [offer], ?_⟩
    rintro ⟨ends, _⟩
    cases ends
  | act action rest inductionHypothesis => exact handsOff.elim
  | note record rest inductionHypothesis =>
    obtain ⟨quiet, goesOn, ends⟩ := inductionHypothesis handsOff accepted (s.record record)
    exact ⟨(s.quiet_record record).trans quiet, goesOn, ends⟩
  | propose p rest inductionHypothesis =>
    simp only [offer]
    cases differs : p.isNoop with
    | true =>
      rw [if_pos rfl]
      refine ⟨⟨⟨rfl, rfl, rfl⟩, rfl⟩, by simp, ?_⟩
      rintro ⟨_, effective⟩
      cases differs.symm.trans (effective p List.mem_cons_self)
    | false =>
      rw [if_neg (by simp), if_pos dry]
      obtain ⟨quiet, goesOn, ends⟩ :=
        inductionHypothesis handsOff accepted { s with changes := s.changes + 1 }
      refine ⟨⟨⟨quiet.tree, quiet.accepted, quiet.written⟩, quiet.answers⟩, goesOn, ?_⟩
      rintro ⟨ended, effective⟩
      exact ends ⟨ended, fun q member => effective q (List.mem_cons_of_mem _ member)⟩

/-- What a part of a dry run does from a session on: it only counts, and it is
complete exactly if a condition holds. -/
structure Surveys (s : Session) (sound : Prop) (count : Nat) (result : Session × VisitEnd) :
    Prop where
  quiet : s.Quiet result.1
  unquit : result.2 ≠ .quit
  completed : result.2 = .completed ↔ sound
  counted : sound → result.1.changes = s.changes + count

namespace Surveys

variable {s : Session} {sound sound' : Prop} {count count' : Nat} {result : Session × VisitEnd}

/-- Doing nothing is complete. -/
theorem nothing (s : Session) : Surveys s True 0 (s, .completed) :=
  ⟨⟨⟨rfl, rfl, rfl⟩, rfl⟩, by simp, by simp, fun _ => rfl⟩

/-- A failure before anything is done. -/
theorem failed (s : Session) (failure : Failure) (refuted : ¬ sound) (count : Nat) :
    Surveys s sound count (s, .failed failure) :=
  ⟨⟨⟨rfl, rfl, rfl⟩, rfl⟩, by simp, by simpa using refuted, fun holds => absurd holds refuted⟩

theorem congr (surveys : Surveys s sound count result) (same : sound ↔ sound')
    (equal : sound' → count = count') : Surveys s sound' count' result :=
  ⟨surveys.quiet, surveys.unquit, surveys.completed.trans same,
    fun holds => equal holds ▸ surveys.counted (same.mpr holds)⟩

/-- Two parts, of which the second follows only a complete first. -/
theorem andThen (first : Surveys s sound count result) {next : Session × VisitEnd}
    (second : Surveys result.1 sound' count' next) :
    Surveys s (sound ∧ sound') (count + count')
      (if result.2 = .completed then next else result) := by
  by_cases holds : result.2 = .completed
  · rw [if_pos holds]
    have holds := first.completed.mp holds
    refine ⟨first.quiet.trans second.quiet, second.unquit, ?_, ?_⟩
    · rw [second.completed]
      exact (and_iff_right holds).symm
    · rintro ⟨_, further⟩
      rw [second.counted further, first.counted holds, Nat.add_assoc]
  · rw [if_neg holds]
    have fails := fun sound => holds (first.completed.mpr sound)
    exact ⟨first.quiet, first.unquit, ⟨fun ended => absurd ended holds,
      fun both => absurd both.1 fails⟩, fun both => absurd both.1 fails⟩

end Surveys

/-- A visit of a dry run. -/
theorem dry_visit (dry : r.dry = true) {g : Suggestor} (handsOff : g.HandsOff) (path : Text)
    (s : Session) :
    Surveys s (g.SoundAt s.tree path) (g.patchesAt s.tree path).length (r.visit g path s) := by
  have noted := s.quiet_note ("file: ".toList ++ path)
  suffices effects : s.Quiet (r.visit g path s).1 ∧ (r.visit g path s).2 ≠ .quit ∧
      (g.SoundAt s.tree path → (r.visit g path s).2 = .completed) by
    obtain ⟨quiet, unquit, ends⟩ := effects
    exact ⟨quiet, unquit, ⟨fun ended => (visit_completed handsOff ended).1, ends⟩,
      fun sound => (visit_completed handsOff (ends sound)).2⟩
  simp only [visit, noted.tree]
  cases read : readText s.tree path with
  | error fault =>
    refine ⟨noted, by simp, ?_⟩
    rintro ⟨text, readable, _⟩
    cases read.symm.trans readable
  | ok text =>
    dsimp only
    cases skip : g.skips text with
    | error fault =>
      refine ⟨noted, by simp, ?_⟩
      rintro ⟨text', readable, skips | ⟨takes, _⟩⟩ <;> cases read.symm.trans readable
      · cases skip.symm.trans skips
      · cases skip.symm.trans takes
    | ok skipped =>
      cases skipped with
      | true => exact ⟨noted.trans (Session.quiet_note _ _), by simp, fun _ => rfl⟩
      | false =>
        obtain ⟨quiet, unquit, ends⟩ := dry_offer dry g.label _ path
          (handsOff ⟨text, some (String.ofList path)⟩) [] (s.note ("file: ".toList ++ path))
        refine ⟨noted.trans quiet, unquit, ?_⟩
        rintro ⟨text', readable, skips | ⟨_, sound⟩⟩ <;> cases read.symm.trans readable
        · cases skip.symm.trans skips
        · exact ends sound

/-- Visits of a dry run to files one after the other. Each of them finds the tree
of the start. -/
theorem dry_visitAll (dry : r.dry = true) {g : Suggestor} (handsOff : g.HandsOff)
    (paths : List Text) (s : Session) :
    Surveys s (∀ path ∈ paths, g.SoundAt s.tree path) (g.patchesFor s.tree paths).length
      (r.visitAll g paths s) := by
  induction paths generalizing s with
  | nil => exact (Surveys.nothing s).congr (by simp) fun _ => rfl
  | cons path rest inductionHypothesis =>
    have first := dry_visit dry handsOff path s
    have second := inductionHypothesis (r.visit g path s).1
    rw [first.quiet.tree] at second
    rw [visitAll_cons]
    refine (first.andThen second).congr List.forall_mem_cons.symm fun _ => ?_
    rw [Suggestor.patchesFor, Suggestor.patchesFor, List.flatMap_cons, List.length_append]

/-- The files that a review lists in a tree. There are none if the listing fails. -/
def listed (r : Review) (t : Tree) : List Text :=
  match r.query.sortedPaths t with
  | .ok paths => paths
  | .error _ => []

/-- Files can be listed, and a suggestor is at fault at none of them. -/
structure SoundFor (r : Review) (t : Tree) (g : Suggestor) : Prop where
  lists : ∃ paths, r.query.sortedPaths t = .ok paths
  sound : ∀ path ∈ r.listed t, g.SoundAt t path

/-- A pass of a dry run. -/
theorem dry_pass (dry : r.dry = true) {g : Suggestor} (handsOff : g.HandsOff) (s : Session) :
    Surveys s (r.SoundFor s.tree g) (g.patchesFor s.tree (r.listed s.tree)).length
      (r.pass g s) := by
  rw [pass]
  cases lists : r.query.sortedPaths s.tree with
  | error fault =>
    refine .failed s _ ?_ _
    rintro ⟨⟨paths, listed⟩, _⟩
    cases lists.symm.trans listed
  | ok paths =>
    have listed : r.listed s.tree = paths := by rw [Review.listed, lists]
    have visited := dry_visitAll dry handsOff paths s
    rw [← listed] at visited ⊢
    exact visited.congr ⟨fun sound => ⟨⟨paths, lists⟩, sound⟩, SoundFor.sound⟩ fun _ => rfl

/-- Passes of a dry run. -/
theorem dry_passes (dry : r.dry = true) {suggestors : List Suggestor}
    (handsOff : ∀ g ∈ suggestors, g.HandsOff) (s : Session) :
    Surveys s (∀ g ∈ suggestors, r.SoundFor s.tree g)
      (suggestors.flatMap fun g => g.patchesFor s.tree (r.listed s.tree)).length
      (r.passes suggestors s) := by
  induction suggestors generalizing s with
  | nil => exact (Surveys.nothing s).congr (by simp) fun _ => rfl
  | cons g rest inductionHypothesis =>
    have first := dry_pass dry (handsOff g List.mem_cons_self) s
    have second := inductionHypothesis
      (fun g member => handsOff g (List.mem_cons_of_mem _ member)) (r.pass g s).1
    rw [first.quiet.tree] at second
    rw [passes_cons]
    refine (first.andThen second).congr List.forall_mem_cons.symm fun _ => ?_
    rw [List.flatMap_cons, List.length_append]

/-- Nothing is at fault in a tree: the query has its start and lists its files, and
no suggestor is at fault at any of them. -/
structure Faultless (r : Review) (t : Tree) : Prop where
  present : r.query.targetExists t = true
  sound : ∀ g ∈ r.suggestors, r.SoundFor t g

/-- The number of patches that all suggestors have for all listed files. -/
def patchCount (r : Review) (t : Tree) : Nat :=
  (r.suggestors.flatMap fun g => g.patchesFor t (r.listed t)).length

/-- The visits of a dry run. -/
theorem dry_sweep (dry : r.dry = true) (handsOff : ∀ g ∈ r.suggestors, g.HandsOff) (s : Session) :
    Surveys s (r.Faultless s.tree) (r.patchCount s.tree) (r.sweep s) := by
  rw [sweep]
  split
  · rename_i present
    obtain ⟨quiet, unquit, completed, counted⟩ :=
      dry_passes dry handsOff (s.say "searching...".toList)
    have said : s.Quiet (s.say "searching...".toList) := ⟨⟨rfl, rfl, rfl⟩, rfl⟩
    exact ⟨said.trans quiet, unquit,
      completed.trans ⟨fun sound => ⟨present, sound⟩, fun faultless => faultless.sound⟩,
      fun faultless => counted faultless.sound⟩
  · rename_i missing
    exact .failed s _ (fun faultless => missing faultless.present) _

/-- A remark that is a text can be said. -/
theorem sayRemark_said {remark : Value}
    (text : remark.isTruthy = true → ∃ line, remark = .text line) (s : Session) :
    (sayRemark remark s).2 = none := by
  rw [sayRemark]
  split
  · rename_i truthy
    obtain ⟨line, rfl⟩ := text truthy
    rfl
  · rfl

/-- How a dry run that is complete ends, if the remark is one that can be said. -/
theorem dry_result (dry : r.dry = true) {s : Session} (completed : r.ending s = .completed)
    (remark : r.remark.isTruthy = true → ∃ line, r.remark = .text line) :
    (r.run s).2 = .ok (if 0 < (r.run s).1.changes then .changesNeeded else .success) := by
  rw [(r.run_silent s).changes]
  rw [ending] at completed
  simp only [run]
  rcases swept : r.sweep s with ⟨m, ended⟩
  rw [swept] at completed
  cases completed
  have noted : (m.note "done".toList).changes = m.changes := rfl
  simp only [conclude, summarize, if_pos dry, noted]
  split
  · have said := sayRemark_said remark
      ((m.note "done".toList).sayError (Text.ofNat m.changes ++ " change(s) needed.").toList)
    split
    · rfl
    · rename_i remarked
      rw [remarked] at said
      cases said
  · rfl

/-- What a dry run from a session on comes to. -/
structure RunsDry (r : Review) (s : Session) : Prop where
  /-- No file, directory or link changes. -/
  tree : (r.run s).1.tree = s.tree
  /-- Nothing is read. -/
  input : (r.run s).1.console.input = s.console.input
  yesToAll : (r.run s).1.yesToAll = s.yesToAll
  accepted : (r.run s).1.accepted = 0
  written : (r.run s).1.written = 0
  /-- Nothing but a fault in the tree as it is keeps the run from its end. -/
  completed : r.ending s = .completed ↔ r.Faultless s.tree
  /-- Without a fault, the changes are the patches for the files as they are. -/
  changes : r.Faultless s.tree → (r.run s).1.changes = r.patchCount s.tree
  /-- The exit code says whether there are any. The remark on them must be a text,
  if there is one. -/
  result : r.Faultless s.tree → (r.remark.isTruthy = true → ∃ line, r.remark = .text line) →
    (r.run s).2 = .ok (if 0 < r.patchCount s.tree then .changesNeeded else .success)

/-- A dry run only counts. -/
theorem dry_run_pure (dry : r.dry = true) (handsOff : ∀ g ∈ r.suggestors, g.HandsOff)
    {s : Session} (fresh : s.counts = .none) : RunsDry r s := by
  have surveys := dry_sweep dry handsOff s
  have closed := r.run_silent s
  have whole := surveys.quiet.trans closed.toQuiet
  obtain ⟨noChanges, noneAccepted, noneWritten⟩ := Counts.mk.inj fresh
  have changes (faultless : r.Faultless s.tree) : (r.run s).1.changes = r.patchCount s.tree := by
    rw [closed.changes, surveys.counted faultless, noChanges, Nat.zero_add]
  refine ⟨whole.tree, ?_, ?_, ?_, ?_, surveys.completed, changes, ?_⟩
  · exact congrArg Answers.input whole.answers
  · exact congrArg Answers.yesToAll whole.answers
  · exact whole.accepted.trans noneAccepted
  · exact whole.written.trans noneWritten
  · intro faultless remark
    rw [← changes faultless]
    exact dry_result dry (surveys.completed.mpr faultless) remark

/-- A review that looks for digits in one file, and only counts. -/
def countingReview : Review where
  query := .single ['a']
  suggestors := [.twoDigits, .twoDigits]
  dry := true

/-- One file with two digits, and an input that would take every patch. -/
def countingSession : Session where
  tree := { entries := [([['a']], .file [49, 48] 0o600)] }
  console := { input := [.text ['y', '\n'], .text ['Y', '\n']] }

/-- Two suggestors with two patches each for the one file: four changes are needed,
and nothing is taken from the input. -/
theorem digits_dry_run_pure :
    (countingReview.dry = true ∧ (∀ g ∈ countingReview.suggestors, g.HandsOff) ∧
      countingSession.counts = .none) ∧
      RunsDry countingReview countingSession ∧
      countingReview.Faultless countingSession.tree ∧
      countingReview.patchCount countingSession.tree = 4 ∧
      (countingReview.run countingSession).1.changes = 4 ∧
      (countingReview.run countingSession).2 = .ok .changesNeeded := by
  have handsOff : ∀ g ∈ countingReview.suggestors, g.HandsOff := by
    intro g member
    have digits : g = .twoDigits := by simpa [countingReview] using member
    exact digits ▸ Suggestor.twoDigits_handsOff
  have runsDry := dry_run_pure (r := countingReview) rfl handsOff (s := countingSession) rfl
  have faultless : countingReview.Faultless countingSession.tree :=
    runsDry.completed.mp (by decide +kernel)
  have four : countingReview.patchCount countingSession.tree = 4 := by decide +kernel
  have changes := runsDry.changes faultless
  have result := runsDry.result faultless (fun truthy => absurd truthy (by decide))
  rw [four] at changes result
  exact ⟨⟨rfl, handsOff, rfl⟩, runsDry, faultless, four, changes, result⟩

end Review

end Emend
