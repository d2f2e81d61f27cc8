import Emend.Proofs.Outcomes

/-!
# Input that agrees

Two inputs agree for a number of decisions if they say the same about each of the
next patches. Whether one of them says it for all patches at once makes no
difference, and neither does the number of lines that it takes. If they agree for
as many decisions as a run has patches, the outcome of the run is the same.

An input is heard as a sequence of decisions: one for each line that is an answer,
and after the last line the decision to quit, for ever. Inputs that are heard alike
agree for any number of decisions.
-/

namespace Emend

namespace Session

/-- The session with other answers. -/
def answering (s : Session) (a : Answers) : Session :=
  { s with console := { s.console with input := a.input }, yesToAll := a.yesToAll }

/-- The session with another input. -/
def reading (s : Session) (input : List InputLine) : Session := s.answering ⟨input, s.yesToAll⟩

end Session

namespace Answers

/-- The next decisions, as many as given, say the same about their patches. -/
def Agree (defaultYes : Bool) : Nat → Answers → Answers → Prop
  | 0, _, _ => True
  | count + 1, a, b =>
    (a.next defaultYes).1.here = (b.next defaultYes).1.here ∧
      Agree defaultYes count (a.next defaultYes).2 (b.next defaultYes).2

variable {defaultYes : Bool}

theorem Agree.symm {count : Nat} {a b : Answers} (agree : Agree defaultYes count a b) :
    Agree defaultYes count b a := by
  induction count generalizing a b with
  | zero => trivial
  | succ count inductionHypothesis => exact ⟨agree.1.symm, inductionHypothesis agree.2⟩

theorem Agree.fewer {count : Nat} {a b : Answers} (agree : Agree defaultYes (count + 1) a b) :
    Agree defaultYes count a b := by
  induction count generalizing a b with
  | zero => trivial
  | succ count inductionHypothesis => exact ⟨agree.1, inductionHypothesis agree.2⟩

theorem parallel_agree (defaultYes : Bool) : Parallel defaultYes (Agree defaultYes) where
  fewer := Agree.fewer
  same agree := agree.1
  next agree := agree.2

/-- Nothing is read once everything is accepted. -/
theorem agree_of_yesToAll (count : Nat) (input input' : List InputLine) :
    Agree defaultYes count ⟨input, true⟩ ⟨input', true⟩ := by
  induction count with
  | zero => trivial
  | succ count inductionHypothesis => exact ⟨rfl, inductionHypothesis⟩

/-- Without that, the next decision is read. -/
theorem next_of_asking (input : List InputLine) :
    next defaultYes ⟨input, false⟩ =
      ((readFrom defaultYes input).1,
        ⟨(readFrom defaultYes input).2, (readFrom defaultYes input).1 = .acceptAll⟩) := rfl

/-- The decision at a place of what is heard of an input. -/
def heard (defaultYes : Bool) (input : List InputLine) (place : Nat) : Decision :=
  (input.filterMap (ofLine defaultYes)).getD place .quit

/-- Reading takes the first decision that is heard and leaves the others. -/
theorem readFrom_heard (defaultYes : Bool) (input : List InputLine) :
    (readFrom defaultYes input).1 = heard defaultYes input 0 ∧
      ∀ place, heard defaultYes (readFrom defaultYes input).2 place =
        heard defaultYes input (place + 1) := by
  induction input with
  | nil => exact ⟨rfl, fun _ => rfl⟩
  | cons line rest inductionHypothesis =>
    cases decision : ofLine defaultYes line with
    | none => simpa [readFrom, heard, decision] using inductionHypothesis
    | some decision => simp [readFrom, heard, *]

/-- Inputs that are heard alike agree for ever. -/
theorem agree_of_heard {input input' : List InputLine}
    (alike : ∀ place, heard defaultYes input place = heard defaultYes input' place)
    (yesToAll : Bool) (count : Nat) :
    Agree defaultYes count ⟨input, yesToAll⟩ ⟨input', yesToAll⟩ := by
  induction count generalizing input input' yesToAll with
  | zero => trivial
  | succ count inductionHypothesis =>
    cases yesToAll with
    | true => exact agree_of_yesToAll (count + 1) input input'
    | false =>
      obtain ⟨first, rest⟩ := readFrom_heard defaultYes input
      obtain ⟨first', rest'⟩ := readFrom_heard defaultYes input'
      have same : (readFrom defaultYes input).1 = (readFrom defaultYes input').1 := by
        rw [first, first', alike]
      rw [Agree, next_of_asking, next_of_asking, same]
      refine ⟨rfl, inductionHypothesis ?_ _⟩
      intro place
      rw [rest, rest', alike]

end Answers

namespace Review

variable {r : Review}

/-- The two runs have the same outcome if one of them has no more patches than
given. -/
def SameWithin (r : Review) (count : Nat) (s t : Session) : Prop :=
  (r.run s).1.changes ≤ s.changes + count ∨ (r.run t).1.changes ≤ t.changes + count →
    r.outcome s = r.outcome t

/-- Runs on answers that agree have the same outcome, if they agree for as many
decisions as one of the runs counts patches. -/
theorem sameWithin_of_agree {count : Nat} {a b : Answers}
    (agree : Answers.Agree r.defaultYes count a b) (s : Session) :
    r.SameWithin count (s.answering a) (s.answering b) := by
  have parallel := Answers.parallel_agree r.defaultYes
  have counts : s.counts = .none + s.counts := (Counts.none_add _).symm
  rintro (enough | enough)
  · exact outcome_eq_of_related parallel ⟨rfl, agree, rfl, counts⟩ enough
  · have same : r.outcome (s.answering b) = r.outcome (s.answering a) :=
      outcome_eq_of_related parallel ⟨rfl, agree.symm, rfl, counts⟩ enough
    exact same.symm

/-- The outcome of a run depends on its input only by what is heard. -/
theorem outcome_of_heard {input input' : List InputLine}
    (alike : ∀ place, Answers.heard r.defaultYes input place =
      Answers.heard r.defaultYes input' place) (s : Session) :
    r.outcome (s.reading input) = r.outcome (s.reading input') := by
  have agree := Answers.agree_of_heard alike s.yesToAll (r.run (s.reading input)).1.changes
  exact sameWithin_of_agree agree s (.inl (Nat.le_add_left _ _))

end Review

end Emend
