import Emend.Review.Visit

/-!
# Decisions from input lines

What becomes of proposed patches depends on little: the lines of input still to
read, whether everything is accepted from now on, and what a blank line stands
for. `Answers` holds the first two. One decision is taken for each patch, in the
order of the patches, until one of them quits; the patches that are accepted are
those whose decision says so.

The console reads its answer in another way, since it writes errors for the lines
that are no answers. Both ways take the same decision and leave the same lines.
-/

namespace Emend

/-- Whether a decision takes its patch. -/
def Decision.accepts : Decision → Bool
  | .accept | .acceptAll => true
  | .reject | .quit => false

/-- All that decisions depend on. -/
structure Answers where
  /-- The lines of input still to read. -/
  input : List InputLine
  /-- Accept every further patch without reading. -/
  yesToAll : Bool

/-- Decisions on patches, in their order, and the answers that are left. -/
structure Decisions where
  taken : List (Patch × Decision)
  left : Answers

namespace Decisions

/-- The patches whose decision accepts them. -/
def accepted (d : Decisions) : List Patch :=
  (d.taken.filter fun (_, decision) => decision.accepts).map Prod.fst

/-- Whether one of the decisions was to quit. -/
def quits (d : Decisions) : Bool := d.taken.any fun (_, decision) => decision = .quit

/-- How a visit with these decisions ends if nothing fails. -/
def ended (d : Decisions) : VisitEnd := if d.quits then .quit else .completed

theorem ended_eq_completed_iff (d : Decisions) : d.ended = .completed ↔ d.quits = false := by
  rw [ended]
  split <;> simp_all

theorem ended_ne_failed (d : Decisions) (failure : Failure) : d.ended ≠ .failed failure := by
  rw [ended]
  split <;> simp

end Decisions

namespace Answers

/-- The decision that a line stands for, unless it is no answer. -/
def ofLine (defaultYes : Bool) : InputLine → Option Decision
  | .interrupt => some .quit
  | .text line =>
    let word := InputLine.stripped line
    if word = [] then some (if defaultYes then .accept else .reject)
    else if word = ['y'] then some .accept
    else if word = ['n'] then some .reject
    else if word = ['A'] then some .acceptAll
    else if word = ['q'] then some .quit
    else none

/-- The decision of the first line that is an answer, and the lines after it.
The end of input quits. -/
def readFrom (defaultYes : Bool) : List InputLine → Decision × List InputLine
  | [] => (.quit, [])
  | line :: rest =>
    match ofLine defaultYes line with
    | some decision => (decision, rest)
    | none => readFrom defaultYes rest

/-- The decision on one patch. To accept all is remembered. -/
def next (defaultYes : Bool) (a : Answers) : Decision × Answers :=
  if a.yesToAll then (.accept, a)
  else
    let (decision, rest) := readFrom defaultYes a.input
    (decision, ⟨rest, decision = .acceptAll⟩)

/-- The decisions on patches, up to the one that quits. -/
def decisions (defaultYes : Bool) : List Patch → Answers → Decisions
  | [], a => ⟨[], a⟩
  | p :: rest, a =>
    let (decision, a) := a.next defaultYes
    if decision = .quit then ⟨[(p, .quit)], a⟩
    else
      let others := decisions defaultYes rest a
      ⟨(p, decision) :: others.taken, others.left⟩

/-- The decisions for one file after the other, up to the file that quits. -/
def replay (defaultYes : Bool) : List (List Patch) → Answers → List Decisions
  | [], _ => []
  | patches :: rest, a =>
    let d := decisions defaultYes patches a
    if d.quits then [d] else d :: replay defaultYes rest d.left

/-- The decision to quit is the last one. -/
theorem decisions_quit {defaultYes : Bool} {a left : Answers}
    (next : a.next defaultYes = (.quit, left)) (p : Patch) (rest : List Patch) :
    decisions defaultYes (p :: rest) a = ⟨[(p, .quit)], left⟩ := by
  simp [decisions, next]

/-- After any other decision those on the remaining patches follow. -/
theorem decisions_next {defaultYes : Bool} {a left : Answers} {decision : Decision}
    (next : a.next defaultYes = (decision, left)) (goesOn : decision ≠ .quit) (p : Patch)
    (rest : List Patch) :
    (decisions defaultYes (p :: rest) a).left = (decisions defaultYes rest left).left ∧
      (decisions defaultYes (p :: rest) a).ended = (decisions defaultYes rest left).ended ∧
      (decisions defaultYes (p :: rest) a).accepted =
        (if decision.accepts then [p] else []) ++ (decisions defaultYes rest left).accepted := by
  have whole : decisions defaultYes (p :: rest) a =
      ⟨(p, decision) :: (decisions defaultYes rest left).taken,
        (decisions defaultYes rest left).left⟩ := by
    simp [decisions, next, goesOn]
  rw [whole]
  refine ⟨rfl, ?_, ?_⟩
  · have same : Decisions.quits ⟨(p, decision) :: (decisions defaultYes rest left).taken,
        (decisions defaultYes rest left).left⟩ = (decisions defaultYes rest left).quits := by
      simp [Decisions.quits, goesOn]
    rw [Decisions.ended, Decisions.ended, same]
  · simp only [Decisions.accepted, List.filter_cons]
    split <;> rfl

end Answers

/-- The answers that a session has left. -/
def Session.answers (s : Session) : Answers := ⟨s.console.input, s.yesToAll⟩

namespace Console

/-- The console comes to the decision of the first line that is an answer,
whatever it has written. -/
theorem answerFrom_eq_readFrom (defaultYes : Bool) (lines : List InputLine) (written : Text) :
    let answered := answerFrom Decision.choices (Review.defaultAnswer defaultYes) lines written
    (Decision.ofAnswer answered.1, answered.2.1) = Answers.readFrom defaultYes lines := by
  induction lines generalizing written with
  | nil => rfl
  | cons line rest inductionHypothesis =>
    cases line with
    | interrupt => rfl
    | text line =>
      rw [answerFrom, Answers.readFrom, Answers.ofLine]
      generalize InputLine.stripped line = word
      match word with
      | [] => cases defaultYes <;> rfl
      | [c] =>
        by_cases known : c = 'y' ∨ c = 'n' ∨ c = 'A' ∨ c = 'q'
        · rcases known with rfl | rfl | rfl | rfl <;> rfl
        · simp only [not_or] at known
          obtain ⟨notY, notN, notA, notQ⟩ := known
          simpa [Decision.choices, notY, notN, notA, notQ] using inductionHypothesis _
      | c :: d :: more => simpa using inductionHypothesis _

end Console

namespace Session

/-- Nothing was committed between two sessions. -/
structure Unmoved (s s' : Session) : Prop where
  tree : s'.tree = s.tree
  accepted : s'.accepted = s.accepted
  written : s'.written = s.written

/-- Nothing was committed between two sessions, and nothing was read. -/
structure Quiet (s s' : Session) : Prop extends Unmoved s s' where
  answers : s'.answers = s.answers

theorem Unmoved.trans {s m u : Session} (first : Unmoved s m) (second : Unmoved m u) :
    Unmoved s u :=
  ⟨second.tree.trans first.tree, second.accepted.trans first.accepted,
    second.written.trans first.written⟩

theorem Quiet.trans {s m u : Session} (first : Quiet s m) (second : Quiet m u) : Quiet s u :=
  ⟨first.toUnmoved.trans second.toUnmoved, second.answers.trans first.answers⟩

theorem quiet_record (s : Session) (r : Record) : Quiet s (s.record r) := ⟨⟨rfl, rfl, rfl⟩, rfl⟩

theorem quiet_note (s : Session) (message : Text) : Quiet s (s.note message) := quiet_record s _

end Session

namespace Review

/-- Showing an excerpt only writes to the console. -/
theorem quiet_showExcerpt (r : Review) (p : Patch) (s : Session) :
    s.Quiet (r.showExcerpt p s).1 := by
  have cleared : s.console.clear.input = s.console.input := by
    rw [Console.clear]
    split <;> rfl
  have prompting : s.Quiet { s with phase := .prompting, console := s.console.clear } :=
    ⟨⟨rfl, rfl, rfl⟩, congrArg (Answers.mk · s.yesToAll) cleared⟩
  rw [showExcerpt]
  dsimp only
  split
  · exact prompting
  · exact prompting.trans ⟨⟨rfl, rfl, rfl⟩, rfl⟩

/-- Showing a diff only writes to the console and to the log. -/
theorem quiet_showDiff (r : Review) (p : Patch) (s : Session) : s.Quiet (r.showDiff p s).1 := by
  rw [showDiff]
  dsimp only
  split
  · exact ⟨⟨rfl, rfl, rfl⟩, rfl⟩
  split
  · exact ⟨⟨rfl, rfl, rfl⟩, rfl⟩
  split <;> exact ⟨⟨rfl, rfl, rfl⟩, rfl⟩

/-- A question takes the decision of the first line that is an answer. -/
theorem ask_spec (r : Review) (s : Session) :
    s.Unmoved (r.ask s).1 ∧ (r.ask s).1.yesToAll = s.yesToAll ∧
      ((r.ask s).2, (r.ask s).1.console.input) =
        Answers.readFrom r.defaultYes s.console.input :=
  ⟨⟨rfl, rfl, rfl⟩, rfl, Console.answerFrom_eq_readFrom r.defaultYes s.console.input []⟩

/-- Coming to a decision commits nothing. If one is reached, it is the next one
that the answers hold; to accept all is still to be remembered. -/
theorem decide_spec {r : Review} {p : Patch} {s s' : Session} {result : Except Fault Decision}
    (decided : r.decide p s = (s', result)) :
    s.Unmoved s' ∧ ∀ decision, result = .ok decision →
      s.answers.next r.defaultYes =
        (decision, ⟨s'.console.input, s'.yesToAll || decision = .acceptAll⟩) := by
  have excerpt := r.quiet_showExcerpt p s
  rw [decide] at decided
  rcases shown : r.showExcerpt p s with ⟨m, _ | fault⟩
  · rw [shown] at excerpt decided
    have diff := excerpt.trans (r.quiet_showDiff p m)
    rcases compared : r.showDiff p m with ⟨u, _ | fault⟩
    · rw [compared] at diff
      simp only [compared] at decided
      rw [← diff.answers]
      split at decided
      · rename_i all
        cases decided
        refine ⟨diff.toUnmoved.trans (u.quiet_note _).toUnmoved, ?_⟩
        rintro decision ⟨⟩
        simp [Answers.next, Session.answers, all, Session.note, Session.record,
          Console.writeErrors]
      · rename_i asks
        obtain ⟨unmoved, flag, answer⟩ := r.ask_spec u
        cases decided
        refine ⟨diff.toUnmoved.trans unmoved, ?_⟩
        rintro decision ⟨⟩
        simp [Answers.next, Session.answers, asks, flag, ← answer]
    · rw [compared] at diff
      simp only [compared] at decided
      cases decided
      exact ⟨diff.toUnmoved, by simp⟩
  · rw [shown] at excerpt decided
    cases decided
    exact ⟨excerpt.toUnmoved, by simp⟩

end Review

end Emend
