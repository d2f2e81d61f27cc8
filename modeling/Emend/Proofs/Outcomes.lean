import Emend.Proofs.Progress

/-!
# Outcomes of runs

Runs are compared by their outcome: the tree of files that they leave, how they
end, and what they have counted.

What a run does from a session on depends on little of that session: the tree, the
decisions that the answers hold and the size of the screen. Counters only grow by
what is done, and what was written to the outputs is never looked at. So two
sessions that agree in what matters stay side by side, whatever is done to both of
them. One may have counted more than the other; its lead stays the same.

The answers need not be equal. It is enough that they come to the same decisions
as long as there are patches to decide on, and no more decisions are taken than
patches are counted.
-/

namespace Emend

/-- What a run counts. -/
structure Counts where
  changes : Nat
  accepted : Nat
  written : Nat
  deriving DecidableEq, Repr

namespace Counts

instance : Add Counts :=
  ⟨fun a b => ⟨a.changes + b.changes, a.accepted + b.accepted, a.written + b.written⟩⟩

/-- Nothing counted yet. -/
def none : Counts := ⟨0, 0, 0⟩

theorem add_assoc (a b c : Counts) : a + b + c = a + (b + c) := by
  change Counts.mk _ _ _ = Counts.mk _ _ _
  simp only [Counts.mk.injEq]
  exact ⟨Nat.add_assoc .., Nat.add_assoc .., Nat.add_assoc ..⟩

theorem none_add (a : Counts) : none + a = a := by
  change Counts.mk (0 + a.changes) (0 + a.accepted) (0 + a.written) = a
  simp only [Nat.zero_add]

end Counts

/-- What a session has counted so far. -/
def Session.counts (s : Session) : Counts := ⟨s.changes, s.accepted, s.written⟩

theorem Session.Silent.counts {s s' : Session} (silent : s.Silent s') : s'.counts = s.counts := by
  rw [Session.counts, silent.changes, silent.accepted, silent.written]
  rfl

/-- What runs are compared by. -/
structure Review.Outcome where
  tree : Tree
  result : Except Fault ExitCode
  counts : Counts

/-- The outcome of something that was done after something else had been counted. -/
def Review.Outcome.after (o : Outcome) (earlier : Counts) : Outcome :=
  { o with counts := earlier + o.counts }

/-- The outcome of a run. -/
def Review.outcome (r : Review) (s : Session) : Outcome :=
  ⟨(r.run s).1.tree, (r.run s).2, (r.run s).1.counts⟩

/-- How the visits of a run end: completely, with a quit or with a failure. -/
def Review.ending (r : Review) (s : Session) : VisitEnd := (r.sweep s).2

/-- The same review, asking other suggestors. -/
def Review.asking (r : Review) (suggestors : List Suggestor) : Review := { r with suggestors }

namespace Session

/-- The session of a new run that takes over where another one stands: the files,
the terminal and whether everything is accepted. It starts to count at zero. -/
def resumed (s : Session) : Session :=
  { tree := s.tree, console := s.console, log := s.log, yesToAll := s.yesToAll }

/-- Two sessions agree in all that a run depends on, and the first one has counted
`lead` more. -/
structure InStep (lead : Counts) (s t : Session) : Prop where
  tree : s.tree = t.tree
  answers : s.answers = t.answers
  screen : s.console.screen = t.console.screen
  counts : s.counts = lead + t.counts

theorem InStep.refl (s : Session) : s.InStep .none s := ⟨rfl, rfl, rfl, (Counts.none_add _).symm⟩

/-- Two results in step: they say the same and leave sessions in step. -/
structure Together {α : Type} (lead : Counts) (a b : Session × α) : Prop where
  step : a.1.InStep lead b.1
  same : a.2 = b.2

/-- Two sessions agree in all that a run depends on but the answers, which are
related, and the first one has counted `lead` more. -/
structure Abreast (related : Answers → Answers → Prop) (lead : Counts) (s t : Session) :
    Prop where
  tree : s.tree = t.tree
  answers : related s.answers t.answers
  screen : s.console.screen = t.console.screen
  counts : s.counts = lead + t.counts

namespace Abreast

variable {related : Answers → Answers → Prop} {lead : Counts} {s t : Session}

/-- Both count the same in addition. -/
theorem counts_add (step : s.Abreast related lead t) (more : Counts) :
    s.counts + more = lead + (t.counts + more) := by
  rw [step.counts, Counts.add_assoc]

/-- What is written to the outputs does not matter. -/
theorem record (step : s.Abreast related lead t) (r r' : Record) :
    (s.record r).Abreast related lead (t.record r') :=
  ⟨step.tree, step.answers, step.screen, step.counts⟩

theorem note (step : s.Abreast related lead t) (message message' : Text) :
    (s.note message).Abreast related lead (t.note message') := step.record _ _

theorem mono (step : s.Abreast related lead t) {other : Answers → Answers → Prop}
    (weaker : related s.answers t.answers → other s.answers t.answers) :
    s.Abreast other lead t := ⟨step.tree, weaker step.answers, step.screen, step.counts⟩

/-- Something is shown in both. -/
theorem shown (step : s.Abreast related lead t) {m m' : Session} (one : s.Shown m)
    (other : t.Shown m') : m.Abreast related lead m' := by
  have counts (s m : Session) (shown : s.Shown m) : m.counts = s.counts := by
    rw [Session.counts, shown.changes, shown.accepted, shown.written]
    rfl
  constructor
  · rw [one.tree, other.tree, step.tree]
  · rw [one.answers, other.answers]
    exact step.answers
  · rw [one.screen, other.screen, step.screen]
  · rw [counts s m one, counts t m' other, step.counts]

end Abreast

end Session

/-- A relation between answers for a number of further decisions. As long as it
holds, both come to the same decision, and it holds for one decision less. -/
structure Answers.Parallel (defaultYes : Bool) (related : Nat → Answers → Answers → Prop) :
    Prop where
  fewer : ∀ {count a b}, related (count + 1) a b → related count a b
  same : ∀ {count a b}, related (count + 1) a b →
    (a.next defaultYes).1.here = (b.next defaultYes).1.here
  next : ∀ {count a b}, related (count + 1) a b →
    related count (a.next defaultYes).2 (b.next defaultYes).2

/-- Decisions that say the same about their own patch. -/
theorem Decision.of_here_eq {d e : Decision} (same : d.here = e.here) :
    (d = .quit ↔ e = .quit) ∧ d.accepts = e.accepts := by
  cases d <;> cases e <;> simp_all [here, accepts]

namespace Session

section

variable {related : Nat → Answers → Answers → Prop} {lead : Counts} {s t : Session}

/-- A patch is counted in both. The number of decisions that may follow is at least
one. -/
theorem Abreast.counting {most : Nat} (step : s.Abreast (related (most - s.changes)) lead t)
    (room : s.changes + 1 ≤ most) :
    Abreast (related (most - (s.changes + 1) + 1)) lead { s with changes := s.changes + 1 }
      { t with changes := t.changes + 1 } := by
  have one : most - s.changes = most - (s.changes + 1) + 1 := by omega
  rw [← one]
  exact ⟨step.tree, step.answers, step.screen, step.counts_add ⟨1, 0, 0⟩⟩

/-- A decision is taken in both. -/
theorem Abreast.decided {defaultYes : Bool} (parallel : Answers.Parallel defaultYes related)
    {count : Nat} (step : s.Abreast (related (count + 1)) lead t) {m m' : Session}
    (one : s.Decided defaultYes m) (other : t.Decided defaultYes m') :
    m.Abreast (related count) lead m' := by
  have counts (s m : Session) (decided : s.Decided defaultYes m) : m.counts = s.counts := by
    rw [Session.counts, decided.changes, decided.accepted, decided.written]
    rfl
  constructor
  · rw [one.tree, other.tree, step.tree]
  · rw [one.answers, other.answers]
    exact parallel.next step.answers
  · rw [one.screen, other.screen, step.screen]
  · rw [counts s m one, counts t m' other, step.counts]

end

/-- Two results side by side, as long as the first session has counted no more than
`most` patches: they say the same, and the answers are related for as many further
decisions as there may be further patches. -/
def Matched {α : Type} (related : Nat → Answers → Answers → Prop) (most : Nat) (lead : Counts)
    (a b : Session × α) : Prop :=
  a.1.changes ≤ most → a.1.Abreast (related (most - a.1.changes)) lead b.1 ∧ a.2 = b.2

end Session

namespace Review

/-- Two reviews differ at most in their suggestors and in the remark at the end. -/
structure Alike (r r' : Review) : Prop where
  query : r.query = r'.query
  dry : r.dry = r'.dry
  defaultYes : r.defaultYes = r'.defaultYes
  config : r.config = r'.config

theorem alike_asking (r : Review) (suggestors suggestors' : List Suggestor) :
    (r.asking suggestors).Alike (r.asking suggestors') := ⟨rfl, rfl, rfl, rfl⟩

theorem Alike.obstacle {r r' : Review} (alike : r.Alike r') (p : Patch) (screen : Screen) :
    r.obstacle p screen = r'.obstacle p screen := by
  simp only [Review.obstacle, excerptObstacle, diffObstacle, alike.config]

variable {r r' : Review} {lead : Counts} {s t : Session}

/-- The same is committed. -/
theorem settle_abreast {related : Answers → Answers → Prop} (step : s.Abreast related lead t)
    (source : Source) (path : Text) (accepted : List Patch) (planned : VisitEnd) :
    (settle source path accepted planned s).1.Abreast related lead
        (settle source path accepted planned t).1 ∧
      (settle source path accepted planned s).2 = (settle source path accepted planned t).2 := by
  simp only [settle, Session.commit, Session.save]
  cases accepted with
  | nil => exact ⟨⟨step.tree, step.answers, step.screen, step.counts_add ⟨0, 0, 0⟩⟩, rfl⟩
  | cons p rest =>
    cases Patch.apply source.text (p :: rest) with
    | error fault =>
      cases fault <;> exact ⟨⟨step.tree, step.answers, step.screen, step.counts⟩, rfl⟩
    | ok updated =>
      simp only [Session.note, Session.record, step.tree]
      cases t.tree.replace path (Text.encode updated) with
      | error fault => exact ⟨⟨rfl, step.answers, step.screen, step.counts⟩, rfl⟩
      | ok tree =>
        exact ⟨⟨rfl, step.answers, step.screen, step.counts_add ⟨0, (p :: rest).length, 1⟩⟩, rfl⟩

section Matching

variable {related : Nat → Answers → Answers → Prop} {most : Nat}

/-- Settling counts nothing, so it leaves as many decisions as before. -/
theorem settle_matched (step : s.Abreast (related (most - s.changes)) lead t) (source : Source)
    (path : Text) (accepted : List Patch) (planned : VisitEnd) :
    Session.Matched related most lead (settle source path accepted planned s)
      (settle source path accepted planned t) := by
  intro _
  rw [(settle_keeps source path accepted planned s).1]
  exact settle_abreast step source path accepted planned

theorem offer_done_matched (alike : r.Alike r') (label : String) (source : Source) (path : Text)
    (accepted : List Patch) (step : s.Abreast (related (most - s.changes)) lead t) :
    Session.Matched related most lead (r.offer label source path .done accepted s)
      (r'.offer label source path .done accepted t) := by
  have settled := settle_matched step source path accepted .completed
  simp only [offer, alike.dry]
  split
  · exact fun _ => ⟨⟨step.tree, step.answers, step.screen, step.counts⟩, rfl⟩
  rcases one : settle source path accepted .completed s with ⟨m, ended⟩
  rcases other : settle source path accepted .completed t with ⟨m', ended'⟩
  rw [one, other] at settled
  intro bounded
  have counted : m.changes ≤ most := by cases ended <;> exact bounded
  obtain ⟨beside, same⟩ := settled counted
  change ended = ended' at same
  subst same
  cases ended with
  | completed => exact ⟨⟨beside.tree, beside.answers, beside.screen, beside.counts⟩, rfl⟩
  | quit => exact ⟨beside, rfl⟩
  | failed failure => exact ⟨beside, rfl⟩

/-- A patch that cannot be shown ends both. -/
theorem offer_obstacle_matched (alike : r.Alike r')
    (parallel : Answers.Parallel r.defaultYes related) (label : String) (source : Source)
    (path : Text) {p : Patch} (rest : Proposals) (accepted : List Patch)
    (step : s.Abreast (related (most - s.changes)) lead t) (wet : r.dry = false)
    (differs : p.isNoop = false) {fault : Fault}
    (obstructed : r.obstacle p s.console.screen = some fault) :
    Session.Matched related most lead (r.offer label source path (.propose p rest) accepted s)
      (r'.offer label source path (.propose p rest) accepted t) := by
  have obstructed' : r'.obstacle p t.console.screen = some fault := by
    rw [← alike.obstacle, ← step.screen, obstructed]
  obtain ⟨m, shown, ended⟩ :=
    offer_of_obstacle wet differs obstructed label source path rest accepted
  obtain ⟨m', shown', ended'⟩ :=
    offer_of_obstacle (alike.dry ▸ wet) differs obstructed' label source path rest accepted
  have counted : m.changes = s.changes + 1 := shown.changes
  rw [ended, ended']
  intro bounded
  have room : s.changes + 1 ≤ most := counted ▸ bounded
  have beside := ((step.counting room).shown shown shown').mono parallel.fewer
  rw [← counted] at beside
  exact ⟨beside, rfl⟩

/-- A patch that can be shown is decided on in both, and the decisions say the same
about it. -/
theorem offer_shown_matched (alike : r.Alike r') (parallel : Answers.Parallel r.defaultYes related)
    (label : String) (source : Source) (path : Text) {p : Patch} {rest : Proposals}
    (further : ∀ {s t : Session} (accepted : List Patch),
      s.Abreast (related (most - s.changes)) lead t →
        Session.Matched related most lead (r.offer label source path rest accepted s)
          (r'.offer label source path rest accepted t))
    (accepted : List Patch) (step : s.Abreast (related (most - s.changes)) lead t)
    (wet : r.dry = false) (differs : p.isNoop = false)
    (clear : r.obstacle p s.console.screen = none) :
    Session.Matched related most lead (r.offer label source path (.propose p rest) accepted s)
      (r'.offer label source path (.propose p rest) accepted t) := by
  have clear' : r'.obstacle p t.console.screen = none := by
    rw [← alike.obstacle, ← step.screen, clear]
  obtain ⟨m, decided, goesOn⟩ :=
    offer_of_shown wet differs clear label source path rest accepted
  obtain ⟨m', decided', goesOn'⟩ :=
    offer_of_shown (alike.dry ▸ wet) differs clear' label source path rest accepted
  rw [← alike.defaultYes] at decided' goesOn'
  have counted : m.changes = s.changes + 1 := decided.changes
  intro bounded
  have room : s.changes + 1 ≤ most := by
    rw [goesOn] at bounded
    split at bounded
    · rw [(settle_keeps source path accepted .quit m).1, counted] at bounded
      exact bounded
    · exact counted ▸ Nat.le_trans (r.offer_advances label source path rest _ m).changes_le bounded
  have counting := step.counting room
  have beside := counting.decided parallel decided decided'
  rw [← counted] at beside
  have same : (s.answers.next r.defaultYes).1.here = (t.answers.next r.defaultYes).1.here :=
    parallel.same counting.answers
  obtain ⟨quit, accepts⟩ := Decision.of_here_eq same
  rw [goesOn, accepts] at bounded ⊢
  rw [goesOn']
  by_cases quits : (s.answers.next r.defaultYes).1 = .quit
  · rw [if_pos quits] at bounded ⊢
    rw [if_pos (quit.mp quits)]
    exact settle_matched beside source path accepted .quit bounded
  · rw [if_neg quits] at bounded ⊢
    rw [if_neg fun quits' => quits (quit.mpr quits')]
    exact further _ beside bounded

/-- Going through the same proposals. The induction is on the stream; a change of
the tree is the same in both sessions. A patch takes one from the decisions for
which the answers are related, whether it is decided on or not. -/
theorem offer_matched (alike : r.Alike r') (parallel : Answers.Parallel r.defaultYes related)
    (label : String) (source : Source) (path : Text) (stream : Proposals) (accepted : List Patch)
    (step : s.Abreast (related (most - s.changes)) lead t) :
    Session.Matched related most lead (r.offer label source path stream accepted s)
      (r'.offer label source path stream accepted t) := by
  induction stream generalizing accepted s t with
  | done => exact offer_done_matched alike label source path accepted step
  | fault fault => exact fun _ => ⟨step, rfl⟩
  | stray type rest inductionHypothesis => exact fun _ => ⟨step, rfl⟩
  | note record rest inductionHypothesis =>
    exact inductionHypothesis accepted (step.record record record)
  | act action rest inductionHypothesis =>
    simp only [offer, step.tree]
    rcases action.perform t.tree with ⟨tree, _ | fault⟩
    · exact inductionHypothesis accepted ⟨rfl, step.answers, step.screen, step.counts⟩
    · exact fun _ => ⟨⟨rfl, step.answers, step.screen, step.counts⟩, rfl⟩
  | propose p rest inductionHypothesis =>
    cases differs : p.isNoop with
    | true =>
      simp only [offer, differs]
      exact fun _ => ⟨step, rfl⟩
    | false =>
      cases dry : r.dry with
      | true =>
        have dry' : r'.dry = true := alike.dry ▸ dry
        simp only [offer, differs, dry, dry', Bool.false_eq_true, if_false, if_true]
        intro bounded
        have room := Nat.le_trans (r.offer_advances label source path rest accepted _).changes_le
          bounded
        exact inductionHypothesis accepted ((step.counting room).mono parallel.fewer) bounded
      | false =>
        cases obstructed : r.obstacle p s.console.screen with
        | some fault =>
          exact offer_obstacle_matched alike parallel label source path rest accepted step dry
            differs obstructed
        | none =>
          exact offer_shown_matched alike parallel label source path
            (fun accepted step => inductionHypothesis accepted step) accepted step dry differs
            obstructed

theorem visit_matched (alike : r.Alike r') (parallel : Answers.Parallel r.defaultYes related)
    (g : Suggestor) (path : Text) (step : s.Abreast (related (most - s.changes)) lead t) :
    Session.Matched related most lead (r.visit g path s) (r'.visit g path t) := by
  have noted := step.note ("file: ".toList ++ path) ("file: ".toList ++ path)
  simp only [visit, noted.tree]
  split
  · exact fun _ => ⟨noted, rfl⟩
  split
  · exact fun _ => ⟨noted, rfl⟩
  · exact fun _ => ⟨noted.note _ _, rfl⟩
  · exact offer_matched alike parallel _ _ path _ [] noted

theorem visitAll_matched (alike : r.Alike r') (parallel : Answers.Parallel r.defaultYes related)
    (g : Suggestor) (paths : List Text) (step : s.Abreast (related (most - s.changes)) lead t) :
    Session.Matched related most lead (r.visitAll g paths s) (r'.visitAll g paths t) := by
  induction paths generalizing s t with
  | nil => exact fun _ => ⟨step, rfl⟩
  | cons path rest inductionHypothesis =>
    have visited := visit_matched alike parallel g path step
    rw [visitAll_cons, visitAll_cons]
    intro bounded
    split at bounded
    · rename_i completed
      obtain ⟨beside, same⟩ :=
        visited (Nat.le_trans (r.visitAll_advances g rest _).changes_le bounded)
      rw [if_pos completed, if_pos (same ▸ completed)]
      exact inductionHypothesis beside bounded
    · rename_i halted
      obtain ⟨beside, same⟩ := visited bounded
      rw [if_neg halted, if_neg (same ▸ halted)]
      exact ⟨beside, same⟩

theorem pass_matched (alike : r.Alike r') (parallel : Answers.Parallel r.defaultYes related)
    (g : Suggestor) (step : s.Abreast (related (most - s.changes)) lead t) :
    Session.Matched related most lead (r.pass g s) (r'.pass g t) := by
  simp only [pass, alike.query, step.tree]
  split
  · exact fun _ => ⟨step, rfl⟩
  · exact visitAll_matched alike parallel g _ step

/-- Passes with the same suggestors stay side by side. -/
theorem passes_matched (alike : r.Alike r') (parallel : Answers.Parallel r.defaultYes related)
    (suggestors : List Suggestor) (step : s.Abreast (related (most - s.changes)) lead t) :
    Session.Matched related most lead (r.passes suggestors s) (r'.passes suggestors t) := by
  induction suggestors generalizing s t with
  | nil => exact fun _ => ⟨step, rfl⟩
  | cons g rest inductionHypothesis =>
    have passed := pass_matched alike parallel g step
    rw [passes_cons, passes_cons]
    intro bounded
    split at bounded
    · rename_i completed
      obtain ⟨beside, same⟩ :=
        passed (Nat.le_trans (r.passes_advances rest _).changes_le bounded)
      rw [if_pos completed, if_pos (same ▸ completed)]
      exact inductionHypothesis beside bounded
    · rename_i halted
      obtain ⟨beside, same⟩ := passed bounded
      rw [if_neg halted, if_neg (same ▸ halted)]
      exact ⟨beside, same⟩

end Matching

/-- Equal answers stay equal, however many decisions are taken. -/
theorem parallel_eq (defaultYes : Bool) : Answers.Parallel defaultYes fun _ => Eq where
  fewer same := same
  same equal := by rw [equal]
  next equal := by rw [equal]

/-- Passes with the same suggestors stay in step. -/
theorem passes_together (alike : r.Alike r') (suggestors : List Suggestor)
    (step : s.InStep lead t) :
    Session.Together lead (r.passes suggestors s) (r'.passes suggestors t) := by
  obtain ⟨beside, same⟩ := passes_matched alike (parallel_eq r.defaultYes) suggestors
    ⟨step.tree, step.answers, step.screen, step.counts⟩ (Nat.le_refl _)
  exact ⟨⟨beside.tree, beside.answers, beside.screen, beside.counts⟩, same⟩

theorem sweep_matched {related : Nat → Answers → Answers → Prop} {most : Nat}
    (parallel : Answers.Parallel r.defaultYes related)
    (step : s.Abreast (related (most - s.changes)) lead t) :
    Session.Matched related most lead (r.sweep s) (r.sweep t) := by
  rw [sweep, sweep, step.tree]
  split
  · exact passes_matched ⟨rfl, rfl, rfl, rfl⟩ parallel r.suggestors
      ⟨step.tree, step.answers, step.screen, step.counts⟩
  · exact fun _ => ⟨step, rfl⟩

/-- Saying a remark only writes. -/
theorem sayRemark_silent (remark : Value) (s : Session) : s.Silent (sayRemark remark s).1 := by
  rw [sayRemark]
  split
  · cases remark <;> exact ⟨⟨⟨rfl, rfl, rfl⟩, rfl⟩, rfl⟩
  · exact .refl s

/-- Summing up only writes. -/
theorem summarize_silent (r : Review) (s : Session) : s.Silent (r.summarize s).1 := by
  have said (line : Text) : s.Silent (s.sayError line) := ⟨⟨⟨rfl, rfl, rfl⟩, rfl⟩, rfl⟩
  rw [summarize]
  split
  · split
    · have remarked := (said (Text.ofNat s.changes ++ " change(s) needed.").toList).trans
        (sayRemark_silent r.remark _)
      dsimp only
      split <;> rename_i remark <;> rw [remark] at remarked <;> exact remarked
    · exact ⟨⟨⟨rfl, rfl, rfl⟩, rfl⟩, rfl⟩
  · exact .refl s

/-- Closing a run only writes. -/
theorem conclude_silent (r : Review) (m : Session) (ended : VisitEnd) :
    m.Silent (r.conclude (m, ended)).1 := by
  have noted (message : Text) : m.Silent (m.note message) := ⟨⟨⟨rfl, rfl, rfl⟩, rfl⟩, rfl⟩
  cases ended with
  | completed => exact (noted _).trans (r.summarize_silent _)
  | quit => exact noted _
  | failed failure => cases failure <;> exact ⟨⟨⟨rfl, rfl, rfl⟩, rfl⟩, rfl⟩

/-- After its visits a run only writes. -/
theorem run_silent (r : Review) (s : Session) : (r.sweep s).1.Silent (r.run s).1 := by
  have concluded := r.conclude_silent (r.sweep s).1 (r.sweep s).2
  exact ⟨⟨⟨concluded.tree, concluded.accepted, concluded.written⟩, concluded.answers⟩,
    concluded.changes⟩

/-- An outcome is where the visits end, closed by the result. -/
theorem outcome_eq (r : Review) (s : Session) :
    r.outcome s =
      ⟨(r.sweep s).1.tree, (r.conclude (r.sweep s)).2, (r.sweep s).1.counts⟩ := by
  have closed := r.run_silent s
  rw [outcome, closed.tree, closed.counts]
  rfl

/-- Whether a remark can be said depends on the remark only. -/
theorem sayRemark_same (remark : Value) (s t : Session) :
    (sayRemark remark s).2 = (sayRemark remark t).2 := by
  simp only [sayRemark]
  split
  · cases remark <;> rfl
  · rfl

/-- The result of a run depends on how its visits end, and for a dry run also on
how much was counted and what is remarked on it. -/
theorem conclude_same (dry : r.dry = r'.dry) {a b : Session × VisitEnd} (same : a.2 = b.2)
    (summary : r.dry = true → a.1.changes = b.1.changes ∧ r.remark = r'.remark) :
    (r.conclude a).2 = (r'.conclude b).2 := by
  obtain ⟨s, ended⟩ := a
  obtain ⟨t, ended'⟩ := b
  change ended = ended' at same
  subst same
  cases ended with
  | completed =>
    cases counts : r.dry with
    | false => simp [conclude, summarize, counts, ← dry]
    | true =>
      obtain ⟨changes, remark⟩ := summary counts
      have noted : (s.note "done".toList).changes = (t.note "done".toList).changes := changes
      simp only [conclude, summarize, ← dry, counts, noted, ← remark, if_true]
      split
      · generalize (s.note "done".toList).sayError
          (Text.ofNat (t.note "done".toList).changes ++ " change(s) needed.").toList = one
        generalize (t.note "done".toList).sayError
          (Text.ofNat (t.note "done".toList).changes ++ " change(s) needed.").toList = other
        have said := sayRemark_same r.remark one other
        rcases told : sayRemark r.remark one with ⟨_, fault⟩
        rcases told' : sayRemark r.remark other with ⟨_, fault'⟩
        rw [told, told'] at said
        cases said
        cases fault <;> rfl
      · rfl
  | quit => rfl
  | failed failure => cases failure <;> rfl

/-- If the visits of two runs that change files end in step, the outcomes differ by
the lead. -/
theorem outcome_eq_after (alike : r.Alike r') (wet : r.dry = false)
    (both : Session.Together lead (r.sweep s) (r'.sweep t)) :
    r.outcome s = (r'.outcome t).after lead := by
  have result := conclude_same alike.dry both.same (by simp [wet])
  rw [outcome_eq, outcome_eq, Outcome.after, both.step.tree, both.step.counts, result]

/-- Runs from sessions that differ only in their answers have the same outcome if
the answers are related for as many decisions as patches are counted. -/
theorem outcome_eq_of_related {related : Nat → Answers → Answers → Prop}
    (parallel : Answers.Parallel r.defaultYes related) {count : Nat}
    (step : s.Abreast (related count) .none t)
    (enough : (r.run s).1.changes ≤ s.changes + count) : r.outcome s = r.outcome t := by
  rw [(r.run_silent s).changes] at enough
  have room : s.changes + count - s.changes = count := Nat.add_sub_cancel_left ..
  rw [← room] at step
  obtain ⟨beside, same⟩ := sweep_matched parallel step enough
  have counts := beside.counts
  rw [Counts.none_add] at counts
  have result := conclude_same (r := r) rfl same fun _ => ⟨congrArg Counts.changes counts, rfl⟩
  rw [outcome_eq, outcome_eq, beside.tree, counts, result]

end Review

end Emend
