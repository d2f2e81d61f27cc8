import Emend.Proofs.Outcomes

/-!
# Aggregates of suggestors

An aggregate asks its parts in turn, and only when its stream is drawn from. So the question
whether a part skips a text, and the fault if that question fails, move from the visit of a
file into the stream. It makes no difference to a run: a skipped text is an empty stream, with
which nothing is committed, and a failed question ends the visit like a stream that throws.
A run with an aggregate of one suggestor has the outcome of a run with that suggestor.

Streams are chained, and a fault ends the chain. Chaining is associative, so the streams of
aggregates within aggregates are those of all their leaves in order.
-/

namespace Emend

namespace Proposals

theorem append_done (stream : Proposals) : stream.append .done = stream := by
  induction stream with
  | done => rfl
  | fault f => rfl
  | propose p rest inductionHypothesis => rw [append, inductionHypothesis]
  | stray type rest inductionHypothesis => rw [append, inductionHypothesis]
  | act action rest inductionHypothesis => rw [append, inductionHypothesis]
  | note record rest inductionHypothesis => rw [append, inductionHypothesis]

/-- Streams may be chained from either side: a fault ends all that comes after it. -/
theorem append_assoc (first second third : Proposals) :
    (first.append second).append third = first.append (second.append third) := by
  induction first with
  | done => rfl
  | fault f => rfl
  | propose p rest inductionHypothesis => rw [append, append, append, inductionHypothesis]
  | stray type rest inductionHypothesis => rw [append, append, append, inductionHypothesis]
  | act action rest inductionHypothesis => rw [append, append, append, inductionHypothesis]
  | note record rest inductionHypothesis => rw [append, append, append, inductionHypothesis]

end Proposals

namespace Suggestor

variable (source : Source)

/-- The stream of two lists of parts is that of the first and then that of the second. -/
theorem chain_append (first second : List Suggestor) :
    chain source (first ++ second) = (chain source first).append (chain source second) := by
  induction first with
  | nil => rfl
  | cons part rest inductionHypothesis =>
    simp only [List.cons_append, chain, inductionHypothesis]
    cases part.skips source.text with
    | error f => rfl
    | ok skipped =>
      cases skipped with
      | true => rfl
      | false => exact (Proposals.append_assoc _ _ _).symm

/-- An aggregate skips nothing, so its stream comes before those of the parts after it. -/
theorem chain_aggregate (parts : List Suggestor) (name : String) (others : List Suggestor) :
    chain source (aggregate parts name :: others) =
      (chain source parts).append (chain source others) := rfl

/-- A suggestor by itself, or several under one name, of which each may be several again. -/
inductive Nesting where
  | single (suggestor : Suggestor)
  | several (parts : List Nesting) (name : String)

namespace Nesting

mutual

/-- The suggestor that a nesting makes: several are aggregated. -/
def suggestor : Nesting → Suggestor
  | single g => g
  | several parts name => aggregate (suggestors parts) name

/-- The suggestors that nestings make. -/
def suggestors : List Nesting → List Suggestor
  | [] => []
  | part :: rest => part.suggestor :: suggestors rest

end

mutual

/-- The suggestors in a nesting that are no aggregates of it, in order. -/
def leaves : Nesting → List Suggestor
  | single g => [g]
  | several parts _ => leavesOf parts

/-- The suggestors in nestings, one nesting after another. -/
def leavesOf : List Nesting → List Suggestor
  | [] => []
  | part :: rest => part.leaves ++ leavesOf rest

end

mutual

/-- A nesting among other parts hands out what its leaves hand out. -/
theorem chain_suggestor (nesting : Nesting) (others : List Suggestor) :
    chain source (nesting.suggestor :: others) = chain source (nesting.leaves ++ others) :=
  match nesting with
  | single g => rfl
  | several parts name => by
    rw [suggestor, leaves, chain_aggregate, chain_suggestors parts, chain_append]

/-- Nestings hand out what their leaves hand out. -/
theorem chain_suggestors (parts : List Nesting) :
    chain source (suggestors parts) = chain source (leavesOf parts) :=
  match parts with
  | [] => rfl
  | part :: rest => by
    rw [suggestors, leavesOf, chain_suggestor part, chain_append, chain_suggestors rest,
      chain_append]

end

end Nesting

end Suggestor

/-- The result of a run whose visits end so. Complete visits leave it to the summary. -/
def VisitEnd.verdict : VisitEnd → Option (Except Fault ExitCode)
  | completed => none
  | quit => some (.ok .success)
  | failed (.unforeseen fault) => some (.error fault)
  | failed failure => some (.ok failure.exitCode)

theorem VisitEnd.verdict_eq_none_iff {ended : VisitEnd} :
    ended.verdict = none ↔ ended = .completed := by
  cases ended with
  | completed => simp [verdict]
  | quit => simp [verdict]
  | failed failure => cases failure <;> simp [verdict]

namespace Session

theorem InStep.trans {s m u : Session} (first : s.InStep .none m) (second : m.InStep .none u) :
    s.InStep .none u := by
  refine ⟨first.tree.trans second.tree, first.answers.trans second.answers,
    first.screen.trans second.screen, ?_⟩
  rw [first.counts, Counts.none_add]
  exact second.counts

/-- Two ways of going on that come to the same: the sessions are in step, and the ends lead to
the same result. -/
structure Tantamount (a b : Session × VisitEnd) : Prop where
  step : a.1.InStep .none b.1
  verdict : a.2.verdict = b.2.verdict

namespace Tantamount

theorem trans {a b c : Session × VisitEnd} (first : Tantamount a b) (second : Tantamount b c) :
    Tantamount a c := ⟨first.step.trans second.step, first.verdict.trans second.verdict⟩

/-- One is complete if the other is. -/
theorem completed_iff {a b : Session × VisitEnd} (same : Tantamount a b) :
    a.2 = .completed ↔ b.2 = .completed := by
  rw [← VisitEnd.verdict_eq_none_iff, ← VisitEnd.verdict_eq_none_iff, same.verdict]

end Tantamount

end Session

namespace Review

open Session (Tantamount)

variable {r r' : Review} {s t : Session}

/-- The name of a suggestor matters only in what is reported. The induction is on the stream;
both go through the same sessions. -/
theorem offer_renamed (r : Review) (label label' : String) (source : Source) (path : Text)
    (stream : Proposals) (accepted : List Patch) (s : Session) :
    Tantamount (r.offer label source path stream accepted s)
      (r.offer label' source path stream accepted s) := by
  induction stream generalizing accepted s with
  | done => exact ⟨.refl _, rfl⟩
  | fault fault => exact ⟨.refl s, rfl⟩
  | stray type rest inductionHypothesis => exact ⟨.refl s, rfl⟩
  | note record rest inductionHypothesis => exact inductionHypothesis accepted _
  | act action rest inductionHypothesis =>
    simp only [offer]
    rcases action.perform s.tree with ⟨tree, _ | fault⟩
    · exact inductionHypothesis accepted _
    · exact ⟨.refl _, rfl⟩
  | propose p rest inductionHypothesis =>
    simp only [offer]
    split
    · exact ⟨.refl s, rfl⟩
    split
    · exact inductionHypothesis accepted _
    rcases r.decide p { s with changes := s.changes + 1 } with ⟨m, fault | decision⟩
    · exact ⟨.refl m, rfl⟩
    cases decision with
    | accept => exact inductionHypothesis _ _
    | reject => exact inductionHypothesis _ _
    | acceptAll => exact inductionHypothesis _ _
    | quit => exact ⟨.refl _, rfl⟩

/-- An empty stream changes nothing that matters, in a dry run or not. -/
theorem offer_nothing (r : Review) (label : String) (source : Source) (path : Text)
    (s : Session) : Tantamount (r.offer label source path .done [] s) (s, .completed) := by
  have counts := (Counts.none_add s.counts).symm
  rw [offer]
  split
  · exact ⟨⟨rfl, rfl, rfl, counts⟩, rfl⟩
  · exact ⟨⟨rfl, rfl, rfl, counts⟩, rfl⟩

/-- A visit with an aggregate of one suggestor comes to the same as one with the suggestor. -/
theorem visit_aggregate (r : Review) (g : Suggestor) (name : String) (path : Text)
    (s : Session) :
    Tantamount (r.visit (.aggregate [g] name) path s) (r.visit g path s) := by
  generalize aggregated : Suggestor.aggregate [g] name = whole
  have asked (text : Text) : whole.skips text = .ok false := by rw [← aggregated]; rfl
  have stream (source : Source) : whole.proposals source = Suggestor.chain source [g] := by
    rw [← aggregated]
    rfl
  simp only [visit, asked, stream, Suggestor.chain, Proposals.append_done]
  split
  · exact ⟨.refl _, rfl⟩
  rename_i text _
  cases g.skips text with
  | error fault => exact ⟨.refl _, rfl⟩
  | ok skipped =>
    cases skipped with
    | true =>
      exact (r.offer_nothing _ _ path _).trans ⟨⟨rfl, rfl, rfl, (Counts.none_add _).symm⟩, rfl⟩
    | false => exact r.offer_renamed _ _ _ path _ [] _

/-- From sessions in step, visits with the same suggestor come to the same. -/
theorem visit_tantamount (alike : r.Alike r') (g : Suggestor) (path : Text)
    (step : s.InStep .none t) : Tantamount (r.visit g path s) (r'.visit g path t) := by
  obtain ⟨beside, same⟩ := visit_matched alike (parallel_eq r.defaultYes) g path
    ⟨step.tree, step.answers, step.screen, step.counts⟩ (Nat.le_refl _)
  exact ⟨⟨beside.tree, beside.answers, beside.screen, beside.counts⟩,
    congrArg VisitEnd.verdict same⟩

/-- Visits of the same files with a suggestor and with its aggregate. -/
theorem visitAll_aggregate (alike : r.Alike r') (g : Suggestor) (name : String)
    (paths : List Text) (step : s.InStep .none t) :
    Tantamount (r.visitAll (.aggregate [g] name) paths s) (r'.visitAll g paths t) := by
  induction paths generalizing s t with
  | nil => exact ⟨step, rfl⟩
  | cons path rest inductionHypothesis =>
    have visited := (r.visit_aggregate g name path s).trans (visit_tantamount alike g path step)
    rw [visitAll_cons, visitAll_cons]
    by_cases completed : (r'.visit g path t).2 = .completed
    · rw [if_pos completed, if_pos (visited.completed_iff.mpr completed)]
      exact inductionHypothesis visited.step
    · rw [if_neg completed, if_neg fun ended => completed (visited.completed_iff.mp ended)]
      exact visited

theorem pass_aggregate (alike : r.Alike r') (g : Suggestor) (name : String)
    (step : s.InStep .none t) :
    Tantamount (r.pass (.aggregate [g] name) s) (r'.pass g t) := by
  simp only [pass, alike.query, step.tree]
  split
  · exact ⟨step, rfl⟩
  · exact visitAll_aggregate alike g name _ step

theorem sweep_aggregate (r : Review) (g : Suggestor) (name : String) (s : Session) :
    Tantamount ((r.asking [.aggregate [g] name]).sweep s) ((r.asking [g]).sweep s) := by
  have alike := r.alike_asking [.aggregate [g] name] [g]
  rw [sweep, sweep, alike.query]
  split
  · have passed := pass_aggregate alike g name (.refl (s.say "searching...".toList))
    rw [← passes_single, ← passes_single] at passed
    exact passed
  · exact ⟨.refl s, rfl⟩

/-- A verdict is the result. -/
theorem conclude_of_verdict {ended : VisitEnd} {result : Except Fault ExitCode}
    (verdict : ended.verdict = some result) : (r.conclude (s, ended)).2 = result := by
  cases ended with
  | completed => cases verdict
  | quit => exact Option.some.inj verdict
  | failed failure => cases failure <;> exact Option.some.inj verdict

/-- Runs that differ in their suggestors have the same outcome if their visits come to the
same. -/
theorem outcome_eq_of_tantamount (alike : r.Alike r') (remark : r.remark = r'.remark)
    (same : Tantamount (r.sweep s) (r'.sweep t)) : r.outcome s = r'.outcome t := by
  have counts := same.step.counts
  rw [Counts.none_add] at counts
  have result : (r.conclude (r.sweep s)).2 = (r'.conclude (r'.sweep t)).2 := by
    cases verdict : (r.sweep s).2.verdict with
    | none =>
      have completed := VisitEnd.verdict_eq_none_iff.mp verdict
      exact conclude_same alike.dry (completed.trans (same.completed_iff.mp completed).symm)
        fun _ => ⟨congrArg Counts.changes counts, remark⟩
    | some result =>
      have verdict' := same.verdict.symm.trans verdict
      exact (conclude_of_verdict verdict).trans (conclude_of_verdict verdict').symm
  rw [outcome_eq, outcome_eq, same.step.tree, counts, result]

/-- Aggregation is transparent. A run with an aggregate of one suggestor leaves the same tree,
ends the same way and counts the same as a run with the suggestor, whatever that does; and
aggregates within an aggregate hand out the stream of one aggregate of all their leaves, up to
and including the fault that ends it. -/
theorem aggregation_transparent :
    (∀ (r : Review) (g : Suggestor) (name : String) (s : Session),
      (r.asking [.aggregate [g] name]).outcome s = (r.asking [g]).outcome s) ∧
      ∀ (parts : List Suggestor.Nesting) (name name' : String) (source : Source),
        (Suggestor.Nesting.several parts name).suggestor.proposals source =
          (Suggestor.aggregate (Suggestor.Nesting.several parts name).leaves name').proposals
            source := by
  constructor
  · intro r g name s
    exact outcome_eq_of_tantamount (r.alike_asking _ _) rfl (r.sweep_aggregate g name s)
  · intro parts name name' source
    exact Suggestor.Nesting.chain_suggestors source parts

end Review

end Emend
