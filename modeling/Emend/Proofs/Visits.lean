import Emend.Proofs.Decisions
import Emend.Review.Run

/-!
# What a visit does

A visit either fails or settles. One that fails has committed nothing, wherever
it failed: the tree is the one that it began with. One that settles has taken the
decisions that the input holds for the proposed patches, and it has committed the
accepted ones in one step. Without accepted patches nothing is written.

This holds of suggestors that leave the tree of files alone. What else they do is
free: they may fail at any point, or propose values that are no patches, patches
that change nothing, patches for another text or patches that overlap.
-/

namespace Emend

/-- A stream that does nothing to the tree of files. -/
def Proposals.HandsOff : Proposals → Prop
  | .done | .fault _ => True
  | .propose _ rest | .stray _ rest | .note _ rest => rest.HandsOff
  | .act .. => False

/-- A list of patches says nothing about the tree. -/
theorem Proposals.handsOff_ofList (patches : List (Except Fault Patch)) :
    (ofList patches).HandsOff := by
  induction patches with
  | nil => trivial
  | cons patch rest inductionHypothesis =>
    cases patch with
    | ok patch => exact inductionHypothesis
    | error fault => trivial

namespace Suggestor

/-- A suggestor that leaves the tree of files alone. -/
def HandsOff (g : Suggestor) : Prop := ∀ source, (g.proposals source).HandsOff

/-- The patches that a suggestor proposes for the text of a file. There are none
for a text that it skips. -/
def patches (g : Suggestor) (path text : Text) : List Patch :=
  match g.skips text with
  | .ok false => ((g.proposals ⟨text, some (String.ofList path)⟩).harvest {}).patches
  | _ => []

/-- Proposes a digit for the first character and one for the second, which not
every text has. -/
def twoDigits : Suggestor where
  kind := "Digits"
  name := "digits"
  description := ""
  skips := fun _ => .ok false
  proposals := fun source =>
    .ofList [Patch.build source 0 (some 1) ['7'], Patch.build source 1 (some 2) ['8']]

theorem twoDigits_handsOff : twoDigits.HandsOff := fun _ => Proposals.handsOff_ofList _

end Suggestor

namespace Session

/-- Patches for a text have been committed to the file of a path. Without
patches nothing was written. -/
structure Commits (s : Session) (text path : Text) (accepted : List Patch) (s' : Session) :
    Prop where
  nothing : accepted = [] → s'.tree = s.tree ∧ s'.written = s.written
  something : accepted ≠ [] → ∃ updated, Patch.apply text accepted = .ok updated ∧
    s.tree.replace path (Text.encode updated) = .ok s'.tree ∧ s'.written = s.written + 1
  counted : s'.accepted = s.accepted + accepted.length

/-- It does not matter for a commit what else happened before. -/
theorem Commits.of_unmoved {s m s' : Session} {text path : Text} {accepted : List Patch}
    (unmoved : s.Unmoved m) (commits : m.Commits text path accepted s') :
    s.Commits text path accepted s' := by
  obtain ⟨nothing, something, counted⟩ := commits
  rw [unmoved.tree, unmoved.written] at nothing something
  rw [unmoved.accepted] at counted
  exact ⟨nothing, something, counted⟩

/-- How something ends that may fail: without a trace in the tree, or as planned
and with all accepted patches committed. -/
inductive Concludes (s : Session) (text path : Text) (accepted : List Patch) (left : Answers)
    (planned : VisitEnd) (s' : Session) : VisitEnd → Prop where
  | failed (failure : Failure) (unmoved : s.Unmoved s') :
      Concludes s text path accepted left planned s' (.failed failure)
  | settled (answers : s'.answers = left) (commits : s.Commits text path accepted s') :
      Concludes s text path accepted left planned s' planned

theorem Concludes.of_unmoved {s m s' : Session} {text path : Text} {accepted : List Patch}
    {left : Answers} {planned ended : VisitEnd} (unmoved : s.Unmoved m)
    (concludes : m.Concludes text path accepted left planned s' ended) :
    s.Concludes text path accepted left planned s' ended := by
  cases concludes with
  | failed failure further => exact .failed failure (unmoved.trans further)
  | settled answers commits => exact .settled answers (commits.of_unmoved unmoved)

end Session

namespace Review

/-- Settling commits the accepted patches or fails without a trace. -/
theorem settle_concludes {source : Source} {path : Text} {accepted : List Patch}
    {planned ended : VisitEnd} {s s' : Session}
    (settled : settle source path accepted planned s = (s', ended)) :
    s.Concludes source.text path accepted s.answers planned s' ended := by
  simp only [settle, Session.commit, Session.save] at settled
  cases accepted with
  | nil =>
    cases settled
    exact .settled rfl ⟨fun _ => ⟨rfl, rfl⟩, fun some => absurd rfl some, rfl⟩
  | cons p rest =>
    cases applied : Patch.apply source.text (p :: rest) with
    | error fault =>
      simp only [applied] at settled
      cases fault <;> cases settled <;> exact .failed _ ⟨rfl, rfl, rfl⟩
    | ok updated =>
      simp only [applied] at settled
      cases replaced : s.tree.replace path (Text.encode updated) with
      | error fault =>
        simp only [Session.note, Session.record, replaced] at settled
        cases settled
        exact .failed _ ⟨rfl, rfl, rfl⟩
      | ok tree =>
        simp only [Session.note, Session.record, replaced] at settled
        cases settled
        exact .settled rfl ⟨by simp, fun _ => ⟨updated, applied, replaced, rfl⟩, rfl⟩

/-- Going through proposals takes the decisions that the input holds for their
patches. The induction is on the stream: `accepted` grows by what the first
decision accepts, and the answers are those after that decision. -/
theorem offer_concludes {r : Review} (wet : r.dry = false) {label : String} {source : Source}
    {path : Text} (t : Tree) {stream : Proposals} (handsOff : stream.HandsOff)
    {accepted : List Patch} {s s' : Session} {ended : VisitEnd}
    (offered : r.offer label source path stream accepted s = (s', ended)) {d : Decisions}
    (decides : s.answers.decisions r.defaultYes (stream.harvest t).patches = d) :
    s.Concludes source.text path (accepted ++ d.accepted) d.left d.ended s' ended := by
  induction stream generalizing accepted s d with
  | done =>
    subst decides
    simp only [offer, wet, Bool.false_eq_true, if_false] at offered
    rcases settling : settle source path accepted .completed s with ⟨m, halted⟩
    have concludes := settle_concludes settling
    rw [settling] at offered
    cases concludes with
    | failed failure unmoved =>
      cases offered
      exact .failed failure unmoved
    | settled answers commits =>
      cases offered
      change s.Concludes source.text path (accepted ++ []) s.answers .completed _ .completed
      rw [List.append_nil]
      exact .settled answers ⟨commits.nothing, commits.something, commits.counted⟩
  | fault fault =>
    cases offered
    exact .failed _ ⟨rfl, rfl, rfl⟩
  | stray type rest inductionHypothesis =>
    cases offered
    exact .failed _ ⟨rfl, rfl, rfl⟩
  | act action rest inductionHypothesis => exact handsOff.elim
  | note record rest inductionHypothesis =>
    have quiet := s.quiet_record record
    rw [← quiet.answers] at decides
    exact (inductionHypothesis handsOff offered decides).of_unmoved quiet.toUnmoved
  | propose p rest inductionHypothesis =>
    change s.answers.decisions r.defaultYes (p :: (rest.harvest t).patches) = d at decides
    -- All decisions but one lead on to the rest of the stream, in a session `m` that holds
    -- the answers after the decision.
    have goesOn (decision : Decision) (other : decision ≠ .quit) {m : Session}
        (unmoved : s.Unmoved m) (taken : s.answers.next r.defaultYes = (decision, m.answers))
        (offered : r.offer label source path rest
          (accepted ++ if decision.accepts then [p] else []) m = (s', ended)) :
        s.Concludes source.text path (accepted ++ d.accepted) d.left d.ended s' ended := by
      obtain ⟨left, planned, some⟩ :=
        Answers.decisions_next taken other p (rest.harvest t).patches
      rw [← decides, left, planned, some, ← List.append_assoc]
      exact (inductionHypothesis handsOff offered rfl).of_unmoved unmoved
    rw [offer] at offered
    split at offered
    · cases offered
      exact .failed _ ⟨rfl, rfl, rfl⟩
    simp only [wet, Bool.false_eq_true, if_false] at offered
    rcases deciding : r.decide p { s with changes := s.changes + 1 } with ⟨m, result⟩
    obtain ⟨shown, next⟩ := decide_spec deciding
    have unmoved : s.Unmoved m := ⟨shown.tree, shown.accepted, shown.written⟩
    rw [deciding] at offered
    cases result with
    | error fault =>
      cases offered
      exact .failed _ unmoved
    | ok decision =>
      have taken := next decision rfl
      cases decision with
      | quit =>
        have last : s.answers.next r.defaultYes = (.quit, m.answers) := by
          simpa [Session.answers] using taken
        rw [← decides, Answers.decisions_quit last]
        change s.Concludes source.text path (accepted ++ []) m.answers .quit s' ended
        rw [List.append_nil]
        exact (settle_concludes offered).of_unmoved unmoved
      | reject =>
        apply goesOn .reject (by simp) unmoved
        · simpa [Session.answers] using taken
        · simpa [Decision.accepts] using offered
      | accept =>
        have noted := m.quiet_note ("patch accepted: " ++ p.describe).toList
        apply goesOn .accept (by simp) (unmoved.trans noted.toUnmoved)
        · rw [noted.answers]
          simpa [Session.answers] using taken
        · exact offered
      | acceptAll =>
        -- The flag is set only now, after the decision was taken.
        have flagged : m.Unmoved { m with yesToAll := true } := ⟨rfl, rfl, rfl⟩
        have noted := Session.quiet_note { m with yesToAll := true }
          ("patch accepted: " ++ p.describe).toList
        apply goesOn .acceptAll (by simp) ((unmoved.trans flagged).trans noted.toUnmoved)
        · rw [noted.answers]
          simpa [Session.answers] using taken
        · exact offered

/-- A visit that has been held, with the sessions before and after. -/
structure Visit (r : Review) where
  suggestor : Suggestor
  path : Text
  before : Session
  after : Session
  ended : VisitEnd
  held : r.visit suggestor path before = (after, ended)

namespace Visit

variable {r : Review}

/-- The patches that are proposed for the text that a visit reads. -/
def patches (v : Visit r) : List Patch :=
  match readText v.before.tree v.path with
  | .ok text => v.suggestor.patches v.path text
  | .error _ => []

/-- The decisions that the input holds for these patches when the visit begins. -/
def decisions (v : Visit r) : Decisions := v.before.answers.decisions r.defaultYes v.patches

/-- A visit that has read a text, taken the decisions and committed the patches
that they accept. -/
structure SettledOn (v : Visit r) (text : Text) : Prop where
  read : readText v.before.tree v.path = .ok text
  ended : v.ended = v.decisions.ended
  answers : v.after.answers = v.decisions.left
  commits : v.before.Commits text v.path v.decisions.accepted v.after

/-- A visit fails without a trace or settles. -/
theorem failed_or_settled (v : Visit r) (wet : r.dry = false) (handsOff : v.suggestor.HandsOff) :
    ((∃ failure, v.ended = .failed failure) ∧ v.before.Unmoved v.after) ∨
      ∃ text, v.SettledOn text := by
  have held := v.held
  have noted := v.before.quiet_note ("file: ".toList ++ v.path)
  rw [visit] at held
  simp only [noted.tree] at held
  cases read : readText v.before.tree v.path with
  | error fault =>
    simp only [read] at held
    obtain ⟨after, ended⟩ := Prod.mk.inj held
    exact .inl ⟨⟨_, ended.symm⟩, after ▸ noted.toUnmoved⟩
  | ok text =>
    simp only [read] at held
    cases skip : v.suggestor.skips text with
    | error fault =>
      simp only [skip] at held
      obtain ⟨after, ended⟩ := Prod.mk.inj held
      exact .inl ⟨⟨_, ended.symm⟩, after ▸ noted.toUnmoved⟩
    | ok skipped =>
      cases skipped with
      | true =>
        have none : v.decisions = ⟨[], v.before.answers⟩ := by
          simp only [decisions, patches, read, Suggestor.patches, skip]
          rfl
        simp only [skip] at held
        obtain ⟨after, ended⟩ := Prod.mk.inj held
        have quiet := after ▸ noted.trans (Session.quiet_note _ "skipped".toList)
        refine .inr ⟨text, read, by rw [none, ← ended]; rfl, by rw [none]; exact quiet.answers, ?_⟩
        rw [none]
        exact ⟨fun _ => ⟨quiet.tree, quiet.written⟩, fun some => absurd rfl some, quiet.accepted⟩
      | false =>
        have decides : (v.before.note ("file: ".toList ++ v.path)).answers.decisions r.defaultYes
            ((v.suggestor.proposals ⟨text, some (String.ofList v.path)⟩).harvest {}).patches =
              v.decisions := by
          simp only [noted.answers, decisions, patches, read, Suggestor.patches, skip]
        simp only [skip] at held
        have concludes := (offer_concludes wet {} (handsOff _) held decides).of_unmoved
          noted.toUnmoved
        generalize reached : v.ended = ended at concludes
        cases concludes with
        | failed failure unmoved => exact .inl ⟨⟨failure, rfl⟩, unmoved⟩
        | settled answers commits => exact .inr ⟨text, read, reached, answers, commits⟩

/-- A visit fails only without a trace. -/
theorem unmoved_of_failed (v : Visit r) (wet : r.dry = false) (handsOff : v.suggestor.HandsOff)
    {failure : Failure} (failed : v.ended = .failed failure) : v.before.Unmoved v.after := by
  rcases v.failed_or_settled wet handsOff with ⟨_, unmoved⟩ | ⟨text, settled⟩
  · exact unmoved
  · exact absurd (settled.ended.symm.trans failed) (v.decisions.ended_ne_failed failure)

/-- A visit that does not fail settles. -/
theorem settled_of_not_failed (v : Visit r) (wet : r.dry = false) (handsOff : v.suggestor.HandsOff)
    (holds : ∀ failure, v.ended ≠ .failed failure) : ∃ text, v.SettledOn text := by
  rcases v.failed_or_settled wet handsOff with ⟨⟨failure, failed⟩, _⟩ | settled
  · exact absurd failed (holds failure)
  · exact settled

end Visit

end Review

end Emend
