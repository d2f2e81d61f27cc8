import Emend.Proofs.InputLines
import Emend.Proofs.Prediction

/-!
# Accepting all patches

To accept all patches is to accept each of them. An input that says so at some
place agrees with an input that says yes from there on, for as many decisions as it
says yes, whatever comes before that place: other answers, lines that are no answer,
or an earlier answer that accepts all.

It also ends the reading. The answers of a run are always in one of two states. The
line that accepts all is still to be read, or it has been read and all that comes
after it is unread, in whatever file and pass the run is.
-/

namespace Emend

/-- As many lines that say yes as given. -/
def InputLine.yesLines (count : Nat) : Text := (List.replicate count ['y', '\n']).flatten

namespace Answers

open InputLine

variable {defaultYes : Bool}

/-- The line that accepts all. -/
def allLine : InputLine := .text ['A', '\n']

/-- A line that accepts one patch. -/
def yesLine : InputLine := .text ['y', '\n']

theorem ofLine_allLine : ofLine defaultYes allLine = some .acceptAll := by
  cases defaultYes <;> decide

theorem ofLine_yesLine : ofLine defaultYes yesLine = some .accept := by
  cases defaultYes <;> decide

theorem readFrom_cons_of_some {line : InputLine} {decision : Decision}
    (answer : ofLine defaultYes line = some decision) (rest : List InputLine) :
    readFrom defaultYes (line :: rest) = (decision, rest) := by
  rw [readFrom, answer]

theorem readFrom_cons_of_none {line : InputLine} (idle : ofLine defaultYes line = none)
    (rest : List InputLine) :
    readFrom defaultYes (line :: rest) = readFrom defaultYes rest := by
  rw [readFrom, idle]

/-- To accept everything agrees with saying yes each time. -/
theorem agree_yes (input : List InputLine) {few many : Nat} (enough : few ≤ many) :
    Agree defaultYes few ⟨input, true⟩ ⟨List.replicate many yesLine, false⟩ := by
  induction few generalizing many with
  | zero => trivial
  | succ few inductionHypothesis =>
    cases many with
    | zero => exact absurd enough (Nat.not_succ_le_zero few)
    | succ many =>
      rw [Agree, List.replicate_succ, next_of_asking, readFrom_cons_of_some ofLine_yesLine]
      exact ⟨rfl, inductionHypothesis (Nat.le_of_succ_le_succ enough)⟩

/-- To accept all at some place agrees with saying yes from there on. The induction
is on the lines before that place: the two sides read the same until they get there. -/
theorem agree_acceptAll (defaultYes : Bool) (front rest : List InputLine) (yesToAll : Bool)
    {few many : Nat} (enough : few ≤ many) :
    Agree defaultYes few ⟨front ++ allLine :: rest, yesToAll⟩
      ⟨front ++ List.replicate many yesLine, yesToAll⟩ := by
  cases few with
  | zero => trivial
  | succ few =>
  cases yesToAll with
  | true => exact agree_of_yesToAll (few + 1) _ _
  | false =>
  induction front generalizing few with
  | nil =>
    cases many with
    | zero => exact absurd enough (Nat.not_succ_le_zero few)
    | succ many =>
      rw [Agree, List.nil_append, List.nil_append, List.replicate_succ, next_of_asking,
        next_of_asking, readFrom_cons_of_some ofLine_allLine, readFrom_cons_of_some ofLine_yesLine]
      exact ⟨rfl, agree_yes rest (Nat.le_of_succ_le_succ enough)⟩
  | cons line front inductionHypothesis =>
    cases answer : ofLine defaultYes line with
    | none =>
      have further := inductionHypothesis few enough
      rw [Agree, next_of_asking, next_of_asking] at further ⊢
      rw [List.cons_append, List.cons_append, readFrom_cons_of_none answer,
        readFrom_cons_of_none answer]
      exact further
    | some decision =>
      rw [Agree, next_of_asking, next_of_asking, List.cons_append, List.cons_append,
        readFrom_cons_of_some answer, readFrom_cons_of_some answer]
      refine ⟨rfl, ?_⟩
      cases few with
      | zero => trivial
      | succ few =>
      by_cases all : decision = .acceptAll
      · simp only [all, decide_true]
        exact agree_of_yesToAll (few + 1) _ _
      · simp only [all, decide_false]
        exact inductionHypothesis few (Nat.le_of_succ_le enough)

/-- Either the line that accepts all is still to be read, or everything is accepted
and nothing after that line has been read. -/
def AllOrAhead (front rest : List InputLine) (a : Answers) : Prop :=
  (a.input = rest ∧ a.yesToAll = true) ∨ ∃ left, left <:+ front ∧ a.input = left ++ allLine :: rest

/-- Reading stops at the line that accepts all at the latest. -/
theorem readFrom_ahead (defaultYes : Bool) (left rest : List InputLine) :
    readFrom defaultYes (left ++ allLine :: rest) = (.acceptAll, rest) ∨
      ∃ decision left', left' <:+ left ∧
        readFrom defaultYes (left ++ allLine :: rest) = (decision, left' ++ allLine :: rest) := by
  induction left with
  | nil => exact .inl (readFrom_cons_of_some ofLine_allLine rest)
  | cons line left inductionHypothesis =>
    rw [List.cons_append]
    cases answer : ofLine defaultYes line with
    | some decision =>
      exact .inr ⟨decision, left, List.suffix_cons line left, readFrom_cons_of_some answer _⟩
    | none =>
      rw [readFrom_cons_of_none answer]
      rcases inductionHypothesis with all | ⟨decision, left', suffix, read⟩
      · exact .inl all
      · exact .inr ⟨decision, left', suffix.trans (List.suffix_cons line left), read⟩

theorem AllOrAhead.next {front rest : List InputLine} {a : Answers}
    (before : AllOrAhead front rest a) : AllOrAhead front rest (a.next defaultYes).2 := by
  obtain ⟨input, yesToAll⟩ := a
  cases yesToAll with
  | true => exact before
  | false =>
    rcases before with ⟨-, impossible⟩ | ⟨left, suffix, rfl⟩
    · cases impossible
    rw [next_of_asking]
    rcases readFrom_ahead defaultYes left rest with read | ⟨_, left', further, read⟩
    · exact .inl (by simp [read])
    · exact .inr ⟨left', further.trans suffix, by rw [read]⟩

theorem AllOrAhead.after {front rest : List InputLine} {a : Answers}
    (before : AllOrAhead front rest a) (count : Nat) :
    AllOrAhead front rest (a.after defaultYes count) := by
  induction count generalizing a with
  | zero => exact before
  | succ count inductionHypothesis => exact inductionHypothesis before.next

end Answers

namespace Review

open InputLine Answers

variable {r : Review}

/-- A run leaves what is unread after as many decisions as it takes. -/
theorem run_allOrAhead {s : Session} {front rest : List InputLine}
    (before : AllOrAhead front rest s.answers) :
    AllOrAhead front rest (r.run s).1.answers := by
  obtain ⟨count, -, answers⟩ := r.sweep_advances s
  rw [(r.run_silent s).answers, answers]
  exact before.after count

theorem ofStream_yesLines (count : Nat) :
    ofStream (yesLines count) = List.replicate count yesLine := by
  have each : ∀ line ∈ List.replicate count ['y', '\n'], IsLine line := by
    intro line member
    rw [List.eq_of_mem_replicate member]
    exact ⟨['y'], by decide, rfl⟩
  rw [ofStream, yesLines, linesFrom_lines _ each, List.map_replicate]
  rfl

/-- To accept all at some place of the input comes to the same as to say yes from
there on, as often as there are patches. Once it is read, it is the last line that
is. To accept all from the start comes to the same as to say yes from the start. -/
theorem accept_all_sticks (r : Review) (s : Session) {front : Text} (complete : Complete front)
    (rest : Text) :
    let all := s.reading (ofStream (front ++ 'A' :: '\n' :: rest))
    let ended := (r.run all).1
    (∀ count, r.SameWithin count all (s.reading (ofStream (front ++ yesLines count)))) ∧
      ((ended.console.input = ofStream rest ∧ ended.yesToAll = true) ∨
        ∃ left, left <:+ ofStream front ∧
          ended.console.input = left ++ ofStream ('A' :: '\n' :: rest)) ∧
      ∀ input count, r.SameWithin count (s.answering ⟨input, true⟩)
        (s.answering ⟨ofStream (yesLines count), false⟩) := by
  have here : ofStream (front ++ 'A' :: '\n' :: rest) =
      ofStream front ++ allLine :: ofStream rest :=
    complete.ofStream_append _
  simp only [here]
  refine ⟨?_, ?_, ?_⟩
  · intro count
    rw [complete.ofStream_append, ofStream_yesLines]
    have agree := agree_acceptAll r.defaultYes (ofStream front) (ofStream rest) s.yesToAll
      (Nat.le_refl count)
    exact sameWithin_of_agree agree s
  · exact run_allOrAhead (.inr ⟨ofStream front, List.suffix_refl _, rfl⟩)
  · intro input count
    rw [ofStream_yesLines]
    exact sameWithin_of_agree (agree_yes input (Nat.le_refl count)) s

/-- Two lines before the answer that accepts all, and a line after it. There are two
patches in the first pass and one in the second: the first patch is rejected, the
others are accepted, and the last line stays unread. -/
theorem digits_accept_all_sticks :
    Complete "n\nhm\n".toList ∧
      (let r := singleReview.asking [.twoDigits, oneDigit]
      let all := singleSession.reading (ofStream "n\nhm\nA\nq\n".toList)
      let yes := singleSession.reading (ofStream ("n\nhm\n".toList ++ yesLines 3))
      r.outcome all = r.outcome yes ∧ (r.outcome all).counts = ⟨3, 2, 2⟩ ∧
        (r.run all).1.console.input = ofStream "q\n".toList) := by
  have complete : Complete "n\nhm\n".toList := by decide
  have enough : ((singleReview.asking [.twoDigits, oneDigit]).run
      (singleSession.reading (ofStream "n\nhm\nA\nq\n".toList))).1.changes ≤ 0 + 3 := by
    decide +kernel
  have sticks := accept_all_sticks (singleReview.asking [.twoDigits, oneDigit]) singleSession
    complete "q\n".toList
  exact ⟨complete, sticks.1 3 (.inl enough), by decide +kernel, by decide +kernel⟩

end Review

end Emend
