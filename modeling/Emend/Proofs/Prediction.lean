import Emend.Proofs.DryRun
import Emend.Proofs.Replay

/-!
# Dry runs predict runs

A dry run that finds nothing to change says that the run itself would find nothing
either, and the other way round. Both are complete without a change exactly if the
tree is calm: nothing is at fault in it, and no suggestor has a patch for it. This
is a condition on the tree at the start, since a run without changes leaves the tree
as it was for every visit.

With one suggestor, a run that accepts everything and does not fail counts as many
changes as the dry run. It does change files, but in a tree without links no visit
changes what another one reads.
-/

namespace Emend

/-- A suggestor is not at fault at a file, and has no patch for it. -/
structure Suggestor.CalmAt (g : Suggestor) (t : Tree) (path : Text) : Prop where
  sound : g.SoundAt t path
  nothing : g.patchesAt t path = []

namespace Review

/-- Files can be listed, and there is nothing for a suggestor to do at any of them. -/
structure CalmFor (r : Review) (t : Tree) (g : Suggestor) : Prop where
  lists : ∃ paths, r.query.sortedPaths t = .ok paths
  calm : ∀ path ∈ r.listed t, g.CalmAt t path

/-- Nothing is at fault in a tree, and there is nothing to change. -/
structure Calm (r : Review) (t : Tree) : Prop where
  present : r.query.targetExists t = true
  calm : ∀ g ∈ r.suggestors, r.CalmFor t g

variable {r : Review}

/-- The end of a stream is not the place to quit. -/
theorem offer_done_ne_quit (r : Review) (label : String) (source : Source) (path : Text)
    (accepted : List Patch) (s : Session) :
    (r.offer label source path .done accepted s).2 ≠ .quit := by
  rw [offer]
  split
  · simp
  rcases settle_ended source path accepted .completed s with completed | ⟨failure, failed⟩
  · rcases settled : settle source path accepted .completed s with ⟨m, ended⟩
    rw [settled] at completed
    cases completed
    simp
  · rcases settled : settle source path accepted .completed s with ⟨m, ended⟩
    rw [settled] at failed
    cases failed
    simp

/-- Going through proposals never counts down, and the user can quit only after a
patch was counted. -/
theorem offer_grows (r : Review) (label : String) (source : Source) (path : Text)
    (stream : Proposals) (accepted : List Patch) (s : Session) :
    s.changes ≤ (r.offer label source path stream accepted s).1.changes ∧
      ((r.offer label source path stream accepted s).2 = .quit →
        s.changes < (r.offer label source path stream accepted s).1.changes) := by
  induction stream generalizing accepted s with
  | done =>
    have same := r.offer_done_changes label source path accepted s
    have unquit := r.offer_done_ne_quit label source path accepted s
    exact ⟨Nat.le_of_eq same.symm, fun quit => absurd quit unquit⟩
  | fault fault => exact ⟨Nat.le_refl _, by simp [offer]⟩
  | stray type rest inductionHypothesis => exact ⟨Nat.le_refl _, by simp [offer]⟩
  | note record rest inductionHypothesis => exact inductionHypothesis accepted (s.record record)
  | act action rest inductionHypothesis =>
    rw [offer]
    rcases action.perform s.tree with ⟨tree, _ | fault⟩
    · exact inductionHypothesis accepted { s with tree }
    · exact ⟨Nat.le_refl _, by simp⟩
  | propose p rest inductionHypothesis =>
    have further (accepted : List Patch) {m : Session} (counted : m.changes = s.changes + 1) :
        s.changes ≤ (r.offer label source path rest accepted m).1.changes ∧
          ((r.offer label source path rest accepted m).2 = .quit →
            s.changes < (r.offer label source path rest accepted m).1.changes) := by
      have grows := (inductionHypothesis accepted m).1
      exact ⟨by omega, fun _ => by omega⟩
    simp only [offer]
    split
    · exact ⟨Nat.le_refl _, by simp⟩
    split
    · exact further accepted rfl
    have counted := r.decide_changes p { s with changes := s.changes + 1 }
    rcases decided : r.decide p { s with changes := s.changes + 1 } with ⟨m, result⟩
    rw [decided] at counted
    replace counted : m.changes = s.changes + 1 := counted
    cases result with
    | error fault => exact ⟨by simp only [counted]; omega, by simp⟩
    | ok decision =>
      cases decision with
      | quit =>
        dsimp only
        rw [(settle_keeps source path accepted .quit m).1, counted]
        exact ⟨Nat.le_succ _, fun _ => Nat.lt_succ_self _⟩
      | reject => exact further _ counted
      | accept => exact further _ counted
      | acceptAll => exact further _ counted

/-- Going through a stream without patches that is not at fault only writes to the
log. -/
theorem offer_calm {label : String} {source : Source} {path : Text} {stream : Proposals}
    (handsOff : stream.HandsOff) (sound : stream.Sound) (none : (stream.harvest {}).patches = [])
    (s : Session) :
    s.Quiet (r.offer label source path stream [] s).1 ∧
      (r.offer label source path stream [] s).2 = .completed := by
  induction stream generalizing s with
  | done =>
    rw [offer]
    split <;> exact ⟨⟨⟨rfl, rfl, rfl⟩, rfl⟩, rfl⟩
  | fault fault => cases sound.1
  | stray type rest inductionHypothesis => cases sound.1
  | act action rest inductionHypothesis => exact handsOff.elim
  | note record rest inductionHypothesis =>
    obtain ⟨quiet, completed⟩ := inductionHypothesis handsOff sound none (s.record record)
    exact ⟨(s.quiet_record record).trans quiet, completed⟩
  | propose p rest inductionHypothesis => cases none

/-- What a part of a run does from a session on, as far as it finds nothing to
change: it is complete without a change exactly if a condition holds, and then it
leaves everything as it was. -/
structure Idles (s : Session) (calm : Prop) (result : Session × VisitEnd) : Prop where
  grows : s.changes ≤ result.1.changes
  quits : result.2 = .quit → s.changes < result.1.changes
  unchanged : result.2 = .completed ∧ result.1.changes = s.changes ↔ calm
  quiet : calm → s.Quiet result.1

namespace Idles

variable {s : Session} {calm calm' : Prop} {result : Session × VisitEnd}

/-- Doing nothing is complete. -/
theorem nothing (s : Session) : Idles s True (s, .completed) :=
  ⟨Nat.le_refl _, by simp, by simp, fun _ => ⟨⟨rfl, rfl, rfl⟩, rfl⟩⟩

/-- A failure before anything is done. -/
theorem failed (s : Session) (failure : Failure) (refuted : ¬ calm) :
    Idles s calm (s, .failed failure) :=
  ⟨Nat.le_refl _, by simp, by simpa using refuted, fun holds => absurd holds refuted⟩

theorem congr (idles : Idles s calm result) (same : calm ↔ calm') : Idles s calm' result :=
  ⟨idles.grows, idles.quits, idles.unchanged.trans same, fun holds => idles.quiet (same.mpr holds)⟩

/-- Two parts, of which the second follows only a complete first. Its condition
may be on the tree that the first part leaves. -/
theorem andThen (first : Idles s calm result) {next : Session × VisitEnd} {later : Prop}
    (second : Idles result.1 later next) (same : result.1.tree = s.tree → (later ↔ calm')) :
    Idles s (calm ∧ calm') (if result.2 = .completed then next else result) := by
  by_cases ended : result.2 = .completed
  · rw [if_pos ended]
    have grows := first.grows
    have further := second.grows
    refine ⟨by omega, fun quit => ?_, ⟨?_, ?_⟩, ?_⟩
    · have more := second.quits quit
      omega
    · rintro ⟨completed, unchanged⟩
      have holds := first.unchanged.mp ⟨ended, by omega⟩
      have after := second.unchanged.mp ⟨completed, by omega⟩
      exact ⟨holds, (same (first.quiet holds).tree).mp after⟩
    · rintro ⟨holds, after⟩
      obtain ⟨completed, unchanged⟩ :=
        second.unchanged.mpr ((same (first.quiet holds).tree).mpr after)
      exact ⟨completed, unchanged.trans (first.unchanged.mpr holds).2⟩
    · rintro ⟨holds, after⟩
      exact (first.quiet holds).trans
        (second.quiet ((same (first.quiet holds).tree).mpr after))
  · rw [if_neg ended]
    have fails : ¬ calm := fun holds => ended (first.unchanged.mpr holds).1
    exact ⟨first.grows, first.quits, ⟨fun completed => absurd completed.1 ended,
      fun both => absurd both.1 fails⟩, fun both => absurd both.1 fails⟩

end Idles

/-- A visit to a file for which there is nothing to do only writes to the log. -/
theorem visit_calm {g : Suggestor} (handsOff : g.HandsOff) {path : Text} {s : Session}
    (calm : g.CalmAt s.tree path) :
    s.Quiet (r.visit g path s).1 ∧ (r.visit g path s).2 = .completed := by
  have noted := s.quiet_note ("file: ".toList ++ path)
  obtain ⟨⟨text, read, sound⟩, none⟩ := calm
  simp only [Suggestor.patchesAt, read, Suggestor.patches] at none
  simp only [visit, noted.tree, read]
  rcases sound with skips | ⟨takes, sound⟩
  · rw [skips]
    exact ⟨noted.trans (Session.quiet_note _ _), rfl⟩
  · rw [takes] at none ⊢
    obtain ⟨quiet, completed⟩ := offer_calm (handsOff _) sound none
      (s.note ("file: ".toList ++ path))
    exact ⟨noted.trans quiet, completed⟩

/-- A visit never counts down, and the user can quit only after a patch was
counted. -/
theorem visit_grows (r : Review) (g : Suggestor) (path : Text) (s : Session) :
    s.changes ≤ (r.visit g path s).1.changes ∧
      ((r.visit g path s).2 = .quit → s.changes < (r.visit g path s).1.changes) := by
  have noted : (s.note ("file: ".toList ++ path)).tree = s.tree := rfl
  simp only [visit, noted]
  cases readText s.tree path with
  | error fault => exact ⟨Nat.le_refl _, by simp⟩
  | ok text =>
    dsimp only
    cases g.skips text with
    | error fault => exact ⟨Nat.le_refl _, by simp⟩
    | ok skipped =>
      cases skipped with
      | true => exact ⟨Nat.le_refl _, by simp⟩
      | false => exact r.offer_grows _ _ _ _ _ (s.note ("file: ".toList ++ path))

/-- A visit of any run, dry or not. -/
theorem visit_idles {g : Suggestor} (handsOff : g.HandsOff) (path : Text) (s : Session) :
    Idles s (g.CalmAt s.tree path) (r.visit g path s) := by
  obtain ⟨grows, quits⟩ := r.visit_grows g path s
  refine ⟨grows, quits, ⟨?_, ?_⟩, fun calm => (visit_calm handsOff calm).1⟩
  · rintro ⟨completed, unchanged⟩
    obtain ⟨sound, counted⟩ := visit_completed handsOff completed
    exact ⟨sound, List.length_eq_zero_iff.mp (by omega)⟩
  · intro calm
    obtain ⟨_, completed⟩ := visit_calm (r := r) handsOff calm
    obtain ⟨_, counted⟩ := visit_completed handsOff completed
    rw [calm.nothing] at counted
    exact ⟨completed, counted⟩

theorem visitAll_idles {g : Suggestor} (handsOff : g.HandsOff) (paths : List Text) (s : Session) :
    Idles s (∀ path ∈ paths, g.CalmAt s.tree path) (r.visitAll g paths s) := by
  induction paths generalizing s with
  | nil => exact (Idles.nothing s).congr (by simp)
  | cons path rest inductionHypothesis =>
    have first := visit_idles (r := r) handsOff path s
    have second := inductionHypothesis (r.visit g path s).1
    rw [visitAll_cons]
    exact (first.andThen second fun same => by rw [same]).congr List.forall_mem_cons.symm

theorem pass_idles {g : Suggestor} (handsOff : g.HandsOff) (s : Session) :
    Idles s (r.CalmFor s.tree g) (r.pass g s) := by
  rw [pass]
  cases lists : r.query.sortedPaths s.tree with
  | error fault =>
    refine .failed s _ ?_
    rintro ⟨⟨paths, listed⟩, _⟩
    cases lists.symm.trans listed
  | ok paths =>
    have listed : r.listed s.tree = paths := by rw [Review.listed, lists]
    have visited := visitAll_idles (r := r) handsOff paths s
    rw [← listed] at visited ⊢
    exact visited.congr ⟨fun calm => ⟨⟨paths, lists⟩, calm⟩, CalmFor.calm⟩

theorem passes_idles {suggestors : List Suggestor} (handsOff : ∀ g ∈ suggestors, g.HandsOff)
    (s : Session) :
    Idles s (∀ g ∈ suggestors, r.CalmFor s.tree g) (r.passes suggestors s) := by
  induction suggestors generalizing s with
  | nil => exact (Idles.nothing s).congr (by simp)
  | cons g rest inductionHypothesis =>
    have first := pass_idles (r := r) (handsOff g List.mem_cons_self) s
    have second := inductionHypothesis
      (fun g member => handsOff g (List.mem_cons_of_mem _ member)) (r.pass g s).1
    rw [passes_cons]
    exact (first.andThen second fun same => by rw [same]).congr List.forall_mem_cons.symm

/-- The visits of any run are complete without a change exactly if the tree is
calm. -/
theorem sweep_idles (handsOff : ∀ g ∈ r.suggestors, g.HandsOff) (s : Session) :
    Idles s (r.Calm s.tree) (r.sweep s) := by
  rw [sweep]
  split
  · rename_i present
    obtain ⟨grows, quits, unchanged, quiet⟩ :=
      passes_idles (r := r) handsOff (s.say "searching...".toList)
    have said : s.Quiet (s.say "searching...".toList) := ⟨⟨rfl, rfl, rfl⟩, rfl⟩
    exact ⟨grows, quits, unchanged.trans ⟨fun calm => ⟨present, calm⟩, Calm.calm⟩,
      fun calm => said.trans (quiet calm.calm)⟩
  · rename_i missing
    exact .failed s _ fun calm => missing calm.present

/-- A run succeeds if its visits are complete or the user quits. -/
theorem ending_of_success {s : Session} (succeeds : (r.run s).2 = .ok .success) :
    r.ending s = .completed ∨ r.ending s = .quit := by
  rw [ending]
  simp only [run] at succeeds
  rcases swept : r.sweep s with ⟨m, ended⟩
  rw [swept] at succeeds
  cases ended with
  | completed => exact .inl rfl
  | quit => exact .inr rfl
  | failed failure => cases failure <;> cases succeeds

/-- A run that is complete succeeds; a dry run does if it has nothing to change. -/
theorem success_of_completed {s : Session} (completed : r.ending s = .completed)
    (unchanged : r.dry = true → (r.run s).1.changes = 0) : (r.run s).2 = .ok .success := by
  rw [(r.run_silent s).changes] at unchanged
  rw [ending] at completed
  simp only [run]
  rcases swept : r.sweep s with ⟨m, ended⟩
  rw [swept] at completed unchanged
  cases completed
  simp only [conclude, summarize]
  split
  · rename_i dry
    have none : ¬ 0 < (m.note "done".toList).changes :=
      Nat.not_lt.mpr (Nat.le_of_eq (unchanged dry))
    rw [if_neg none]
  · rfl

/-- A dry run succeeds only without a change. -/
theorem dry_success_unchanged (dry : r.dry = true) (handsOff : ∀ g ∈ r.suggestors, g.HandsOff)
    {s : Session} (succeeds : (r.run s).2 = .ok .success) : (r.run s).1.changes = 0 := by
  have completed : r.ending s = .completed :=
    (ending_of_success succeeds).resolve_right (dry_sweep dry handsOff s).unquit
  rw [(r.run_silent s).changes]
  rw [ending] at completed
  simp only [run] at succeeds
  rcases swept : r.sweep s with ⟨m, ended⟩
  rw [swept] at completed succeeds
  cases completed
  rcases Nat.eq_zero_or_pos m.changes with none | some
  · exact none
  · have some : 0 < (m.note "done".toList).changes := some
    simp only [conclude, summarize, if_pos dry, if_pos some] at succeeds
    split at succeeds <;> cases succeeds

/-- Any run, dry or not, succeeds without a change exactly if the tree is calm. -/
theorem success_unchanged_iff (handsOff : ∀ g ∈ r.suggestors, g.HandsOff) {s : Session}
    (fresh : s.changes = 0) :
    (r.run s).2 = .ok .success ∧ (r.run s).1.changes = 0 ↔ r.Calm s.tree := by
  have idles := sweep_idles handsOff s
  have closed := (r.run_silent s).changes
  constructor
  · rintro ⟨succeeds, unchanged⟩
    have same : (r.sweep s).1.changes = s.changes := by rw [← closed, unchanged, fresh]
    rcases ending_of_success succeeds with completed | quit
    · exact idles.unchanged.mp ⟨completed, same⟩
    · exact absurd same (Nat.ne_of_gt (idles.quits quit))
  · intro calm
    obtain ⟨completed, same⟩ := idles.unchanged.mpr calm
    have unchanged : (r.run s).1.changes = 0 := by rw [closed, same, fresh]
    exact ⟨success_of_completed completed fun _ => unchanged, unchanged⟩

/-- A run over a calm tree writes nothing. -/
theorem run_calm (handsOff : ∀ g ∈ r.suggestors, g.HandsOff) {s : Session}
    (calm : r.Calm s.tree) : s.Quiet (r.run s).1 :=
  ((sweep_idles handsOff s).quiet calm).trans (r.run_silent s).toQuiet

end Review

/-- Who accepts everything never quits and reads nothing. -/
theorem Answers.decisions_yesToAll (defaultYes : Bool) {a : Answers} (all : a.yesToAll = true)
    (patches : List Patch) :
    (decisions defaultYes patches a).quits = false ∧ (decisions defaultYes patches a).left = a := by
  have accept : a.next defaultYes = (.accept, a) := by rw [next, if_pos all]
  induction patches with
  | nil => exact ⟨rfl, rfl⟩
  | cons p rest inductionHypothesis =>
    obtain ⟨left, ended, _⟩ := decisions_next accept (by simp) p rest
    rw [← Decisions.ended_eq_completed_iff] at inductionHypothesis ⊢
    rw [left, ended]
    exact inductionHypothesis

namespace Review

variable {r : Review}

/-- A visit after which everything is accepted already does not quit, and it stays
so. -/
theorem Visit.accepting (v : Visit r) (wet : r.dry = false) (handsOff : v.suggestor.HandsOff)
    (all : v.before.yesToAll = true) :
    v.ended ≠ .quit ∧ (v.ended = .completed → v.after.yesToAll = true) := by
  obtain ⟨goesOn, left⟩ :=
    Answers.decisions_yesToAll r.defaultYes (a := v.before.answers) all v.patches
  rcases v.failed_or_settled wet handsOff with ⟨⟨failure, failed⟩, _⟩ | ⟨text, settled⟩
  · simp [failed]
  · have completed : v.ended = .completed :=
      settled.ended.trans (v.decisions.ended_eq_completed_iff.mpr goesOn)
    have kept : v.after.answers = v.before.answers := settled.answers.trans left
    refine ⟨by simp [completed], fun _ => ?_⟩
    exact (congrArg Answers.yesToAll kept).trans all

/-- Where everything is accepted from the start, no visit quits. -/
theorem Follows.unquit {s u : Session} {visits : List (Visit r)} (follows : Follows s visits u)
    (wet : r.dry = false) (handsOff : ∀ v ∈ visits, v.suggestor.HandsOff)
    (all : s.yesToAll = true) : ∀ v ∈ visits, v.ended ≠ .quit := by
  induction follows with
  | none s => simp
  | last v =>
    intro w member
    rw [List.mem_singleton.mp member]
    exact (v.accepting wet (handsOff v List.mem_cons_self) all).1
  | next v completed further inductionHypothesis =>
    obtain ⟨unquit, still⟩ := v.accepting wet (handsOff v List.mem_cons_self) all
    have later := inductionHypothesis
      (fun w member => handsOff w (List.mem_cons_of_mem _ member)) (still completed)
    intro w member
    rcases List.mem_cons.mp member with rfl | member
    · exact unquit
    · exact later w member

/-- What the visits count adds up. -/
theorem Follows.changes {s u : Session} {visits : List (Visit r)} (follows : Follows s visits u)
    {offered : Visit r → List Patch}
    (counted : ∀ v ∈ visits, v.after.changes = v.before.changes + (offered v).length) :
    u.changes = s.changes + (visits.flatMap offered).length := by
  induction follows with
  | none s => rfl
  | last v =>
    rw [counted v List.mem_cons_self, List.flatMap_singleton]
  | next v completed further inductionHypothesis =>
    rw [inductionHypothesis fun w member => counted w (List.mem_cons_of_mem _ member),
      counted v List.mem_cons_self, List.flatMap_cons, List.length_append, Nat.add_assoc]

/-- All visits of a run that accepts everything and succeeds are complete. -/
theorem accepting_visits_completed (wet : r.dry = false)
    (handsOff : ∀ g ∈ r.suggestors, g.HandsOff) {s : Session} (all : s.yesToAll = true)
    (succeeds : (r.run s).2 = .ok .success) : ∀ v ∈ r.history s, v.ended = .completed := by
  intro v member
  refine Decidable.byContradiction fun halted => ?_
  obtain ⟨start, final, quiet, follows, _⟩ := r.history_follows s
  have accepting : start.yesToAll = true := (congrArg Answers.yesToAll quiet.answers).trans all
  have unquit : v.ended ≠ .quit :=
    follows.unquit wet (fun w held => handsOff _ (suggestor_of_mem_history held)) accepting v member
  have reached : r.ending s = v.ended := congrArg Prod.snd (sweep_of_halted member halted)
  rcases ending_of_success succeeds with completed | quit
  · exact halted (reached.symm.trans completed)
  · exact unquit (reached.symm.trans quit)

/-- What a visit reads in a run with one suggestor is what was there at the
start. -/
theorem reads_start {g : Suggestor} (only : r.suggestors = [g]) (wet : r.dry = false)
    (handsOff : g.HandsOff) {s : Session} (formed : s.tree.WellFormed)
    (linkFree : s.tree.LinkFree) {v : Visit r} (member : v ∈ r.history s)
    (completed : v.ended = .completed) :
    readText v.before.tree v.path = readText s.tree v.path := by
  obtain ⟨front, back, whole⟩ := List.append_of_mem member
  obtain ⟨d, text, location, bytes, mode, _, replayed⟩ :=
    settled_replayed only wet handsOff formed linkFree whole (by simp [completed])
  rw [replayed.read, readText_eq_ok_iff_lookup.mpr
    ⟨location, bytes, mode, replayed.found, replayed.readable, replayed.decoded⟩]

/-- The sweep of a run with one suggestor is a single pass. -/
theorem sweep_eq_pass {g : Suggestor} (only : r.suggestors = [g]) {s : Session}
    (present : r.query.targetExists s.tree = true) :
    r.sweep s = r.pass g (s.say "searching...".toList) := by
  rw [sweep, if_pos present, only, passes_single]

/-- It visits the listed files. -/
theorem sweep_eq_visitAll {g : Suggestor} (only : r.suggestors = [g]) {s : Session}
    (present : r.query.targetExists s.tree = true) {paths : List Text}
    (lists : r.query.sortedPaths s.tree = .ok paths) :
    r.sweep s = r.visitAll g paths (s.say "searching...".toList) := by
  have again : r.query.sortedPaths (s.say "searching...".toList).tree = .ok paths := lists
  rw [sweep_eq_pass only present, pass, again]

/-- A run with one suggestor that succeeds has found its start and listed its
files. -/
theorem listing_of_success {g : Suggestor} (only : r.suggestors = [g]) {s : Session}
    (succeeds : (r.run s).2 = .ok .success) :
    r.query.targetExists s.tree = true ∧ ∃ paths, r.query.sortedPaths s.tree = .ok paths := by
  have ended := ending_of_success succeeds
  rw [ending] at ended
  by_cases present : r.query.targetExists s.tree = true
  · rw [sweep_eq_pass only present, pass] at ended
    have same : (s.say "searching...".toList).tree = s.tree := rfl
    rw [same] at ended
    cases lists : r.query.sortedPaths s.tree with
    | error fault =>
      rw [lists] at ended
      simp at ended
    | ok paths => exact ⟨present, paths, rfl⟩
  · rw [sweep, if_neg present] at ended
    simp at ended

/-- A run with one suggestor that accepts everything and succeeds counts the
patches for the files as they were at the start. -/
theorem accepting_count {g : Suggestor} (only : r.suggestors = [g]) (wet : r.dry = false)
    (handsOff : g.HandsOff) {s : Session} (formed : s.tree.WellFormed)
    (linkFree : s.tree.LinkFree) (all : s.yesToAll = true)
    (succeeds : (r.run s).2 = .ok .success) :
    r.Faultless s.tree ∧ (r.run s).1.changes = s.changes + r.patchCount s.tree := by
  obtain ⟨present, paths, lists⟩ := listing_of_success only succeeds
  have everyHandsOff : ∀ g ∈ r.suggestors, g.HandsOff := by
    rw [only]
    intro g' member
    exact List.mem_singleton.mp member ▸ handsOff
  have completed := accepting_visits_completed wet everyHandsOff all succeeds
  have held : ∀ v ∈ r.history s, g.SoundAt s.tree v.path ∧
      v.after.changes = v.before.changes + (g.patchesAt s.tree v.path).length := by
    intro v member
    have same := reads_start only wet handsOff formed linkFree member (completed v member)
    have suggestor : v.suggestor = g := by
      have among := suggestor_of_mem_history member
      rwa [only, List.mem_singleton] at among
    have ended : (r.visit g v.path v.before).2 = .completed := by
      rw [← suggestor, v.held]
      exact completed v member
    have counted := visit_completed handsOff ended
    rw [← suggestor, v.held, suggestor] at counted
    simpa only [Suggestor.SoundAt, Suggestor.patchesAt, same] using counted
  have listed : r.listed s.tree = paths := by rw [Review.listed, lists]
  have history := history_eq_visits only lists
  have visited : (r.history s).map Visit.path = paths := by
    rw [history] at completed ⊢
    exact visits_paths_of_completed completed
  constructor
  · refine ⟨present, ?_⟩
    rw [only]
    intro g' member
    rw [List.mem_singleton.mp member]
    refine ⟨⟨paths, lists⟩, ?_⟩
    intro path among
    rw [listed, ← visited] at among
    obtain ⟨v, member, rfl⟩ := List.mem_map.mp among
    exact (held v member).1
  · obtain ⟨follows, _⟩ := visits_follow (r := r) g paths (s.say "searching...".toList)
    rw [← history, ← sweep_eq_visitAll only present lists] at follows
    have total := follows.changes fun v member => (held v member).2
    have only : r.patchCount s.tree = (g.patchesFor s.tree paths).length := by
      rw [patchCount, only, listed, List.flatMap_singleton]
    rw [(r.run_silent s).changes, total, only, Suggestor.patchesFor, ← visited, List.flatMap_map]
    rfl

/-- A review as a dry run or as one that commits. -/
def inMode (r : Review) (dry : Bool) : Review := { r with dry }

/-- The mode does not matter for what is at fault. -/
theorem faultless_inMode (r : Review) (dry : Bool) (t : Tree) :
    (r.inMode dry).Faultless t ↔ r.Faultless t := by
  constructor <;> rintro ⟨present, sound⟩ <;>
    exact ⟨present, fun g member => ⟨(sound g member).lists, (sound g member).sound⟩⟩

/-- The mode does not matter for what there is to do. -/
theorem calm_inMode (r : Review) (dry : Bool) (t : Tree) :
    (r.inMode dry).Calm t ↔ r.Calm t := by
  constructor <;> rintro ⟨present, calm⟩ <;>
    exact ⟨present, fun g member => ⟨(calm g member).lists, (calm g member).calm⟩⟩

/-- A dry run from one session says how the run that accepts everything ends from
another one. -/
structure Predicts (r : Review) (d w : Session) : Prop where
  /-- The dry run succeeds exactly if the run has nothing to change. -/
  success : ((r.inMode true).run d).2 = .ok .success ↔
    ((r.inMode false).run w).2 = .ok .success ∧ ((r.inMode false).run w).1.changes = 0
  /-- Then the run writes nothing. -/
  unwritten : ((r.inMode true).run d).2 = .ok .success →
    ((r.inMode false).run w).1.written = 0 ∧ ((r.inMode false).run w).1.tree = w.tree
  /-- With one suggestor, both count the same changes. This needs a tree without
  links, since through a link a visit may change what a later one reads. -/
  changes : w.tree.WellFormed → w.tree.LinkFree → ∀ g, r.suggestors = [g] →
    ((r.inMode false).run w).2 = .ok .success →
      ((r.inMode true).run d).1.changes = ((r.inMode false).run w).1.changes

/-- A dry run predicts the run over the same tree. -/
theorem dry_run_predicts (r : Review) (handsOff : ∀ g ∈ r.suggestors, g.HandsOff)
    {d w : Session} (same : d.tree = w.tree) (freshDry : d.counts = .none)
    (freshWet : w.counts = .none) (all : w.yesToAll = true) : Predicts r d w := by
  obtain ⟨dryChanges, _, _⟩ := Counts.mk.inj freshDry
  obtain ⟨wetChanges, _, wetWritten⟩ := Counts.mk.inj freshWet
  have dry : ((r.inMode true).run d).2 = .ok .success ↔ r.Calm w.tree := by
    rw [← same, ← r.calm_inMode true,
      ← success_unchanged_iff (r := r.inMode true) handsOff dryChanges]
    exact ⟨fun succeeds => ⟨succeeds, dry_success_unchanged (r := r.inMode true) rfl handsOff
      succeeds⟩, And.left⟩
  have wet := (success_unchanged_iff (r := r.inMode false) handsOff wetChanges).trans
    (r.calm_inMode false w.tree)
  refine ⟨dry.trans wet.symm, ?_, ?_⟩
  · intro succeeds
    have quiet := run_calm (r := r.inMode false) handsOff
      ((r.calm_inMode false _).mpr (dry.mp succeeds))
    exact ⟨quiet.written.trans wetWritten, quiet.tree⟩
  · intro formed linkFree g only succeeds
    obtain ⟨faultless, counted⟩ := accepting_count (r := r.inMode false) only rfl
      (handsOff g (by simp [only])) formed linkFree all succeeds
    rw [faultless_inMode, ← same, ← r.faultless_inMode true] at faultless
    have surveys := dry_sweep (r := r.inMode true) rfl handsOff d
    rw [((r.inMode true).run_silent d).changes, surveys.counted faultless, counted, dryChanges,
      wetChanges, same]
    rfl

/-- Proposes a digit for the first character. -/
def oneDigit : Suggestor where
  kind := "Digit"
  name := "digit"
  description := ""
  skips := fun _ => .ok false
  proposals := fun source => .ofList [Patch.build source 0 (some 1) ['7']]

/-- One pass over all files that proposes a digit for each. -/
def singleDigitPass : Review := digitPass.asking [oneDigit]

/-- Three files with two characters each, and everything is accepted. -/
def acceptingSession : Session where
  tree := quittingSession.tree
  console := { input := [] }
  yesToAll := true

/-- The run rewrites all three files, and it counts the three changes that the dry run
has counted. -/
theorem digits_dry_run_predicts :
    ((∀ g ∈ singleDigitPass.suggestors, g.HandsOff) ∧
      quittingSession.tree = acceptingSession.tree ∧ quittingSession.counts = .none ∧
      acceptingSession.counts = .none ∧ acceptingSession.yesToAll = true) ∧
    Predicts singleDigitPass quittingSession acceptingSession ∧
    ((singleDigitPass.inMode false).run acceptingSession).2 = .ok .success ∧
    ((singleDigitPass.inMode false).run acceptingSession).1.counts = ⟨3, 3, 3⟩ ∧
    ((singleDigitPass.inMode true).run quittingSession).1.changes = 3 := by
  have handsOff : ∀ g ∈ singleDigitPass.suggestors, g.HandsOff := by
    intro g member
    rw [List.mem_singleton.mp member]
    exact fun _ => Proposals.handsOff_ofList _
  have predicts := dry_run_predicts singleDigitPass handsOff (d := quittingSession)
    (w := acceptingSession) rfl rfl rfl rfl
  have unsorted : digitPass.query.paths acceptingSession.tree =
      .ok [['.', '/', 'c'], ['.', '/', 'b'], ['.', '/', 'a']] := rfl
  have lists : digitPass.query.sortedPaths acceptingSession.tree =
      .ok [['.', '/', 'a'], ['.', '/', 'b'], ['.', '/', 'c']] := by
    rw [Query.sortedPaths, unsorted]
    simp [Except.map, List.mergeSort, Text.precedes]
  have swept := sweep_eq_visitAll (r := singleDigitPass.inMode false) rfl (by decide) lists
  have completed : (singleDigitPass.inMode false).ending acceptingSession = .completed := by
    rw [ending, swept]
    decide +kernel
  have succeeds := success_of_completed completed fun dry => absurd dry (by decide)
  have counts : ((singleDigitPass.inMode false).run acceptingSession).1.counts = ⟨3, 3, 3⟩ := by
    rw [((singleDigitPass.inMode false).run_silent acceptingSession).counts, swept]
    decide +kernel
  have same := predicts.changes (by decide) (by decide) oneDigit rfl succeeds
  exact ⟨⟨handsOff, rfl, rfl, rfl, rfl⟩, predicts, succeeds, counts,
    same.trans (congrArg Counts.changes counts)⟩

end Review

end Emend
