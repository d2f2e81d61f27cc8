import Emend.Proofs.History

/-!
# Progress of a session

What a patch is shown as is of no consequence, but that it can be shown is. Whether
it can depends on the settings and on the screen; if so, the decision on it is the
next one that the answers hold.

Nothing else in a run reads an answer. So between any two sessions of a run some
decisions were taken, one after the other, and for each of them a patch was
counted. This holds of every run, whatever its suggestors do and however it ends.
-/

namespace Emend

/-- What a decision says about its own patch. That it holds for all others as well
is left out. -/
def Decision.here : Decision → Decision
  | .acceptAll => .accept
  | other => other

/-- The answers after a number of decisions. -/
def Answers.after (defaultYes : Bool) : Nat → Answers → Answers
  | 0, a => a
  | count + 1, a => after defaultYes count (a.next defaultYes).2

theorem Answers.after_add (defaultYes : Bool) (first second : Nat) (a : Answers) :
    a.after defaultYes (first + second) = (a.after defaultYes first).after defaultYes second := by
  induction first generalizing a with
  | zero => rw [Nat.zero_add, after]
  | succ first inductionHypothesis =>
    rw [Nat.succ_add, after, after]
    exact inductionHypothesis _

namespace Session

/-- Nothing was committed, read or counted between two sessions. -/
structure Silent (s s' : Session) : Prop extends Quiet s s' where
  changes : s'.changes = s.changes

theorem Silent.refl (s : Session) : Silent s s := ⟨⟨⟨rfl, rfl, rfl⟩, rfl⟩, rfl⟩

theorem Silent.trans {s m u : Session} (first : Silent s m) (second : Silent m u) : Silent s u :=
  ⟨first.toQuiet.trans second.toQuiet, second.changes.trans first.changes⟩

/-- Between two sessions nothing has happened but that something was shown. -/
structure Shown (s s' : Session) : Prop extends Silent s s' where
  screen : s'.console.screen = s.console.screen

theorem Shown.trans {s m u : Session} (first : Shown s m) (second : Shown m u) : Shown s u :=
  ⟨first.toSilent.trans second.toSilent, second.screen.trans first.screen⟩

/-- A session in which a decision has been taken. To accept all is remembered. -/
def remembering (s : Session) (decision : Decision) : Session :=
  if decision = .acceptAll then { s with yesToAll := true } else s

/-- Between two sessions a decision was taken on a patch, and nothing else was done. -/
structure Decided (s : Session) (defaultYes : Bool) (s' : Session) : Prop extends Unmoved s s' where
  changes : s'.changes = s.changes
  screen : s'.console.screen = s.console.screen
  answers : s'.answers = (s.answers.next defaultYes).2

/-- Between two sessions some decisions were taken and no other line was read. For
each of them a patch was counted. -/
def Advances (defaultYes : Bool) (s s' : Session) : Prop :=
  ∃ count, s.changes + count ≤ s'.changes ∧ s'.answers = s.answers.after defaultYes count

namespace Advances

variable {defaultYes : Bool} {s m u : Session}

theorem changes_le (advances : s.Advances defaultYes u) : s.changes ≤ u.changes := by
  obtain ⟨count, counted, _⟩ := advances
  omega

/-- Counting and committing take no decision. -/
theorem of_answers (answers : u.answers = s.answers) (changes : s.changes ≤ u.changes) :
    s.Advances defaultYes u := ⟨0, changes, answers⟩

theorem of_silent (silent : s.Silent u) : s.Advances defaultYes u :=
  of_answers silent.answers (Nat.le_of_eq silent.changes.symm)

theorem refl (s : Session) : s.Advances defaultYes s := of_silent (.refl s)

theorem trans (first : s.Advances defaultYes m) (second : m.Advances defaultYes u) :
    s.Advances defaultYes u := by
  obtain ⟨few, counted, answers⟩ := first
  obtain ⟨more, further, left⟩ := second
  refine ⟨few + more, by omega, ?_⟩
  rw [left, answers, Answers.after_add]

end Advances

end Session

namespace Review

variable {r : Review} {p : Patch} {s : Session}

/-- Why the excerpt of a patch cannot be shown, if it cannot. -/
def excerptObstacle (r : Review) (p : Patch) : Option Fault :=
  match p.excerptBy r.config.contextLines with
  | .error fault => some fault
  | .ok _ => none

/-- Why the diff of a patch cannot be shown on a screen, if it cannot. -/
def diffObstacle (r : Review) (p : Patch) (screen : Screen) : Option Fault :=
  match screen.room r.config.reservedLines r.config.minLines r.config.fallbackLines with
  | .error fault => some fault
  | .ok room =>
    match room.shown with
    | .error fault => some fault
    | .ok _ =>
      match p.diffBy room with
      | .error fault => some fault
      | .ok _ => none

/-- Why a patch cannot be shown, if it cannot. The excerpt comes first. -/
def obstacle (r : Review) (p : Patch) (screen : Screen) : Option Fault :=
  (r.excerptObstacle p).or (r.diffObstacle p screen)

theorem showExcerpt_spec (r : Review) (p : Patch) (s : Session) :
    (r.showExcerpt p s).2 = r.excerptObstacle p ∧ s.Shown (r.showExcerpt p s).1 := by
  have quiet := r.quiet_showExcerpt p s
  have cleared : s.console.clear.screen = s.console.screen := by
    rw [Console.clear]
    split <;> rfl
  simp only [showExcerpt, excerptObstacle] at quiet ⊢
  cases excerpt : p.excerptBy r.config.contextLines with
  | error fault =>
    rw [excerpt] at quiet
    exact ⟨rfl, ⟨⟨quiet, rfl⟩, cleared⟩⟩
  | ok fragments =>
    rw [excerpt] at quiet
    exact ⟨rfl, ⟨⟨quiet, rfl⟩, cleared⟩⟩

theorem showDiff_spec (r : Review) (p : Patch) (s : Session) :
    (r.showDiff p s).2 = r.diffObstacle p s.console.screen ∧ s.Shown (r.showDiff p s).1 := by
  simp only [showDiff, diffObstacle]
  cases s.console.screen.room r.config.reservedLines r.config.minLines r.config.fallbackLines with
  | error fault => exact ⟨rfl, ⟨⟨⟨⟨rfl, rfl, rfl⟩, rfl⟩, rfl⟩, rfl⟩⟩
  | ok room =>
    dsimp only
    cases room.shown with
    | error fault => exact ⟨rfl, ⟨⟨⟨⟨rfl, rfl, rfl⟩, rfl⟩, rfl⟩, rfl⟩⟩
    | ok size =>
      dsimp only
      cases p.diffBy room with
      | error fault => exact ⟨rfl, ⟨⟨⟨⟨rfl, rfl, rfl⟩, rfl⟩, rfl⟩, rfl⟩⟩
      | ok fragments => exact ⟨rfl, ⟨⟨⟨⟨rfl, rfl, rfl⟩, rfl⟩, rfl⟩, rfl⟩⟩

/-- A patch that cannot be shown is not decided on. -/
theorem decide_of_obstacle {fault : Fault}
    (obstructed : r.obstacle p s.console.screen = some fault) :
    ∃ m, r.decide p s = (m, .error fault) ∧ s.Shown m := by
  obtain ⟨refused, shown⟩ := r.showExcerpt_spec p s
  rw [obstacle, ← refused] at obstructed
  rw [decide]
  rcases excerpt : r.showExcerpt p s with ⟨m, _ | cause⟩
  · rw [excerpt] at shown obstructed
    obtain ⟨refused, compared⟩ := r.showDiff_spec p m
    rw [Option.none_or, ← shown.screen, ← refused] at obstructed
    rcases diff : r.showDiff p m with ⟨u, _ | cause⟩
    · rw [diff] at obstructed
      cases obstructed
    · rw [diff] at compared obstructed
      cases obstructed
      simp only [diff]
      exact ⟨u, rfl, shown.trans compared⟩
  · rw [excerpt] at shown obstructed
    cases obstructed
    exact ⟨m, rfl, shown⟩

/-- A patch that can be shown is decided on. -/
theorem decide_of_shown (clear : r.obstacle p s.console.screen = none) :
    ∃ m decision, r.decide p s = (m, .ok decision) ∧ m.changes = s.changes ∧
      m.console.screen = s.console.screen := by
  obtain ⟨refused, shown⟩ := r.showExcerpt_spec p s
  rw [obstacle, ← refused, Option.or_eq_none_iff] at clear
  rw [decide]
  rcases excerpt : r.showExcerpt p s with ⟨m, _ | cause⟩
  · rw [excerpt] at shown clear
    obtain ⟨refused, compared⟩ := r.showDiff_spec p m
    rw [← shown.screen, ← refused] at clear
    rcases diff : r.showDiff p m with ⟨u, _ | cause⟩
    · rw [diff] at compared
      have whole := shown.trans compared
      simp only [diff]
      split
      · exact ⟨_, _, rfl, whole.changes, whole.screen⟩
      · exact ⟨_, _, rfl, whole.changes, whole.screen⟩
    · rw [diff] at clear
      cases clear.2
  · rw [excerpt] at clear
    cases clear.1

/-- The decision on a patch that can be shown is the next one that the answers
hold. -/
theorem decide_eq_next (clear : r.obstacle p s.console.screen = none) :
    ∃ m, r.decide p s = (m, .ok (s.answers.next r.defaultYes).1) ∧
      s.Decided r.defaultYes (m.remembering (s.answers.next r.defaultYes).1) := by
  obtain ⟨m, decision, decided, changes, screen⟩ := decide_of_shown clear
  obtain ⟨unmoved, next⟩ := decide_spec decided
  have taken := next decision rfl
  rw [taken]
  refine ⟨m, decided, ?_⟩
  by_cases all : decision = .acceptAll
  · rw [Session.remembering, if_pos all]
    refine ⟨⟨unmoved.tree, unmoved.accepted, unmoved.written⟩, changes, screen, ?_⟩
    rw [taken]
    simp [Session.answers, all]
  · rw [Session.remembering, if_neg all]
    refine ⟨unmoved, changes, screen, ?_⟩
    rw [taken]
    simp [Session.answers, all]

/-- A patch that cannot be shown ends the visit after it was counted. -/
theorem offer_of_obstacle (wet : r.dry = false) (differs : p.isNoop = false) {fault : Fault}
    (obstructed : r.obstacle p s.console.screen = some fault) (label : String) (source : Source)
    (path : Text) (rest : Proposals) (accepted : List Patch) :
    ∃ m, Session.Shown { s with changes := s.changes + 1 } m ∧
      r.offer label source path (.propose p rest) accepted s =
        (m, .failed (.unforeseen fault)) := by
  obtain ⟨m, decided, shown⟩ :=
    decide_of_obstacle (s := { s with changes := s.changes + 1 }) obstructed
  refine ⟨m, shown, ?_⟩
  simp [offer, differs, wet, decided]

/-- A patch that can be shown is counted and decided on. Unless the decision is to
quit, the rest of the stream follows, with the patch among the accepted ones if it
was accepted. -/
theorem offer_of_shown (wet : r.dry = false) (differs : p.isNoop = false)
    (clear : r.obstacle p s.console.screen = none) (label : String) (source : Source)
    (path : Text) (rest : Proposals) (accepted : List Patch) :
    ∃ m, Session.Decided { s with changes := s.changes + 1 } r.defaultYes m ∧
      r.offer label source path (.propose p rest) accepted s =
        if (s.answers.next r.defaultYes).1 = .quit then settle source path accepted .quit m
        else r.offer label source path rest
          (accepted ++ if (s.answers.next r.defaultYes).1.accepts then [p] else []) m := by
  obtain ⟨m, decided, taken⟩ := decide_eq_next (s := { s with changes := s.changes + 1 }) clear
  have same : Session.answers { s with changes := s.changes + 1 } = s.answers := rfl
  rw [same] at decided taken
  simp only [offer, differs, wet, decided, Bool.false_eq_true, if_false]
  cases decision : (s.answers.next r.defaultYes).1 with
  | quit =>
    rw [decision] at taken
    exact ⟨m, taken, rfl⟩
  | reject =>
    rw [decision] at taken
    exact ⟨m, taken, by simp [Decision.accepts]⟩
  | accept =>
    rw [decision] at taken
    exact ⟨noteAccepted p m, ⟨⟨taken.tree, taken.accepted, taken.written⟩, taken.changes,
      taken.screen, taken.answers⟩, rfl⟩
  | acceptAll =>
    rw [decision] at taken
    exact ⟨noteAccepted p { m with yesToAll := true }, ⟨⟨taken.tree, taken.accepted,
      taken.written⟩, taken.changes, taken.screen, taken.answers⟩, rfl⟩

/-- Settling counts no patch as proposed and reads no answer. -/
theorem settle_keeps (source : Source) (path : Text) (accepted : List Patch)
    (planned : VisitEnd) (s : Session) :
    (settle source path accepted planned s).1.changes = s.changes ∧
      (settle source path accepted planned s).1.answers = s.answers := by
  simp only [settle, Session.commit, Session.save]
  cases accepted with
  | nil => exact ⟨rfl, rfl⟩
  | cons p rest =>
    cases Patch.apply source.text (p :: rest) with
    | error fault => cases fault <;> exact ⟨rfl, rfl⟩
    | ok updated =>
      simp only [Session.note, Session.record]
      cases s.tree.replace path (Text.encode updated) <;> exact ⟨rfl, rfl⟩

theorem settle_advances (source : Source) (path : Text) (accepted : List Patch)
    (planned : VisitEnd) (s : Session) :
    s.Advances r.defaultYes (settle source path accepted planned s).1 := by
  obtain ⟨changes, answers⟩ := settle_keeps source path accepted planned s
  exact .of_answers answers (Nat.le_of_eq changes.symm)

/-- Going through proposals. The induction is on the stream: every patch is counted
before it is decided on. -/
theorem offer_advances (r : Review) (label : String) (source : Source) (path : Text)
    (stream : Proposals) (accepted : List Patch) (s : Session) :
    s.Advances r.defaultYes (r.offer label source path stream accepted s).1 := by
  induction stream generalizing accepted s with
  | done =>
    have settled := settle_advances (r := r) source path accepted .completed s
    rw [offer]
    split
    · exact .of_answers rfl (Nat.le_refl _)
    rcases ended : settle source path accepted .completed s with ⟨m, _ | _ | _⟩ <;>
      rw [ended] at settled <;> exact settled
  | fault fault => exact .refl s
  | stray type rest inductionHypothesis => exact .refl s
  | note record rest inductionHypothesis => exact inductionHypothesis accepted (s.record record)
  | act action rest inductionHypothesis =>
    rw [offer]
    rcases action.perform s.tree with ⟨tree, _ | fault⟩
    · exact inductionHypothesis accepted { s with tree }
    · exact .of_answers rfl (Nat.le_refl _)
  | propose p rest inductionHypothesis =>
    have counted : s.Advances r.defaultYes { s with changes := s.changes + 1 } :=
      .of_answers rfl (Nat.le_succ _)
    cases differs : p.isNoop with
    | true =>
      rw [offer, if_pos differs]
      exact .refl s
    | false =>
      cases dry : r.dry with
      | true =>
        simp only [offer, differs, dry, Bool.false_eq_true, if_false, if_true]
        exact counted.trans (inductionHypothesis accepted _)
      | false =>
        cases obstructed : r.obstacle p s.console.screen with
        | some fault =>
          obtain ⟨m, shown, ended⟩ :=
            offer_of_obstacle dry differs obstructed label source path rest accepted
          rw [ended]
          exact counted.trans (.of_silent shown.toSilent)
        | none =>
          obtain ⟨m, decided, goesOn⟩ :=
            offer_of_shown dry differs obstructed label source path rest accepted
          have taken : s.Advances r.defaultYes m :=
            ⟨1, Nat.le_of_eq decided.changes.symm, decided.answers⟩
          rw [goesOn]
          split
          · exact taken.trans (settle_advances source path accepted .quit m)
          · exact taken.trans (inductionHypothesis _ m)

theorem visit_advances (r : Review) (g : Suggestor) (path : Text) (s : Session) :
    s.Advances r.defaultYes (r.visit g path s).1 := by
  have noted : s.Advances r.defaultYes (s.note ("file: ".toList ++ path)) :=
    .of_answers rfl (Nat.le_refl _)
  simp only [visit]
  split
  · exact noted
  split
  · exact noted
  · exact noted.trans (.of_answers rfl (Nat.le_refl _))
  · exact noted.trans (r.offer_advances _ _ path _ [] _)

theorem visitAll_advances (r : Review) (g : Suggestor) (paths : List Text) (s : Session) :
    s.Advances r.defaultYes (r.visitAll g paths s).1 := by
  induction paths generalizing s with
  | nil => exact .refl s
  | cons path rest inductionHypothesis =>
    rw [visitAll_cons]
    split
    · exact (r.visit_advances g path s).trans (inductionHypothesis _)
    · exact r.visit_advances g path s

theorem pass_advances (r : Review) (g : Suggestor) (s : Session) :
    s.Advances r.defaultYes (r.pass g s).1 := by
  rw [pass]
  split
  · exact .refl s
  · exact r.visitAll_advances g _ s

theorem passes_advances (r : Review) (suggestors : List Suggestor) (s : Session) :
    s.Advances r.defaultYes (r.passes suggestors s).1 := by
  induction suggestors generalizing s with
  | nil => exact .refl s
  | cons g rest inductionHypothesis =>
    rw [passes_cons]
    split
    · exact (r.pass_advances g s).trans (inductionHypothesis _)
    · exact r.pass_advances g s

/-- All visits of a run together. -/
theorem sweep_advances (r : Review) (s : Session) :
    s.Advances r.defaultYes (r.sweep s).1 := by
  rw [sweep]
  split
  · exact (Session.Advances.of_answers rfl (Nat.le_refl _)).trans
      (r.passes_advances r.suggestors (s.say "searching...".toList))
  · exact .refl s

end Review

end Emend
