import Emend.Review.Run

/-!
# A run step by step

A run is taken apart into steps. Between two steps there is a moment: what is to be done
next, with all that the run keeps in mind for it, and the session. A step looks for the
target, lists the files, begins a visit, takes the next proposal, comes to a decision,
commits what was accepted, or closes the run.

The steps lead from the start of a run to its end (`run_reached`). A step is a function, so
there is one way only, and from every moment on it the end of the run lies ahead
(`Passes.run_ahead`).
-/

namespace Emend

namespace Review

/-- A visit that has begun, with the files and the suggestors that come after it. -/
structure Begun where
  suggestor : Suggestor
  source : Source
  path : Text
  paths : List Text
  later : List Suggestor

/-- What a run does next. -/
inductive Task where
  | search
  | pass (suggestors : List Suggestor)
  | visit (suggestor : Suggestor) (paths : List Text) (later : List Suggestor)
  | offer (v : Begun) (stream : Proposals) (accepted : List Patch)
  /-- A patch has been counted and is to be decided on. -/
  | decide (v : Begun) (p : Patch) (stream : Proposals) (accepted : List Patch)
  | commit (v : Begun) (accepted : List Patch) (planned : VisitEnd)
  | close (ended : VisitEnd)
  | finished (result : Except Fault ExitCode)

/-- Where a run stands between two steps. -/
structure Moment where
  task : Task
  session : Session

namespace Begun

/-- The visit is complete, and the next file is in line. -/
def leave (v : Begun) (s : Session) : Moment :=
  ⟨.visit v.suggestor v.paths v.later, { s with phase := .idle }⟩

end Begun

variable (r : Review)

/-- Begin the visit to a file. -/
def stepVisit (g : Suggestor) (path : Text) (paths : List Text) (later : List Suggestor)
    (s : Session) : Moment :=
  let s := s.note ("file: ".toList ++ path)
  match readText s.tree path with
  | .error fault => ⟨.close (.failed (.unreadable path fault)), s⟩
  | .ok text =>
    match g.skips text with
    | .error fault => ⟨.close (.failed (.skipThrew g.label fault)), s⟩
    | .ok true => ⟨.visit g paths later, s.note "skipped".toList⟩
    | .ok false =>
      let source : Source := ⟨text, some (String.ofList path)⟩
      ⟨.offer ⟨g, source, path, paths, later⟩ (g.proposals source) [], s⟩

/-- Take what comes next from a stream. -/
def stepOffer (v : Begun) (stream : Proposals) (accepted : List Patch) (s : Session) : Moment :=
  match stream with
  | .done => if r.dry then v.leave s else ⟨.commit v accepted .completed, s⟩
  | .fault fault => ⟨.close (.failed (.generateThrew v.suggestor.label fault)), s⟩
  | .stray type _ => ⟨.close (.failed (.unforeseen (.notPatch type "is_noop"))), s⟩
  | .note record rest => ⟨.offer v rest accepted, s.record record⟩
  | .act action rest =>
    match action.perform s.tree with
    | (tree, some fault) =>
      ⟨.close (.failed (.generateThrew v.suggestor.label (.file fault))), { s with tree }⟩
    | (tree, none) => ⟨.offer v rest accepted, { s with tree }⟩
  | .propose p rest =>
    if p.isNoop then ⟨.close (.failed (.emptyPatch p.describe)), s⟩
    else
      let s := { s with changes := s.changes + 1 }
      if r.dry then ⟨.offer v rest accepted, s⟩ else ⟨.decide v p rest accepted, s⟩

/-- Come to a decision on a patch. -/
def stepDecide (v : Begun) (p : Patch) (stream : Proposals) (accepted : List Patch)
    (s : Session) : Moment :=
  match r.decide p s with
  | (s, .error fault) => ⟨.close (.failed (.unforeseen fault)), s⟩
  | (s, .ok .quit) => ⟨.commit v accepted .quit, s⟩
  | (s, .ok .reject) => ⟨.offer v stream accepted, s⟩
  | (s, .ok .accept) => ⟨.offer v stream (accepted ++ [p]), noteAccepted p s⟩
  | (s, .ok .acceptAll) =>
    ⟨.offer v stream (accepted ++ [p]), noteAccepted p { s with yesToAll := true }⟩

/-- Commit what was accepted. -/
def stepCommit (v : Begun) (accepted : List Patch) (planned : VisitEnd) (s : Session) : Moment :=
  match s.commit v.source v.path accepted with
  | (s, some failure) => ⟨.close (.failed failure), s⟩
  | (s, none) => if planned = .completed then v.leave s else ⟨.close planned, s⟩

/-- One step of a run. A run that has finished stays as it is. -/
def step (a : Moment) : Moment :=
  let s := a.session
  match a.task with
  | .search =>
    if r.query.targetExists s.tree then ⟨.pass r.suggestors, s.say "searching...".toList⟩
    else ⟨.close (.failed (.missingTarget r.query.target)), s⟩
  | .pass [] => ⟨.close .completed, s⟩
  | .pass (g :: later) =>
    match r.query.sortedPaths s.tree with
    | .error fault => ⟨.close (.failed (.unforeseen fault)), s⟩
    | .ok paths => ⟨.visit g paths later, s⟩
  | .visit _ [] later => ⟨.pass later, s⟩
  | .visit g (path :: paths) later => stepVisit g path paths later s
  | .offer v stream accepted => r.stepOffer v stream accepted s
  | .decide v p stream accepted => r.stepDecide v p stream accepted s
  | .commit v accepted planned => stepCommit v accepted planned s
  | .close ended =>
    let (s, result) := r.conclude (s, ended)
    ⟨.finished result, { s with phase := .complete }⟩
  | .finished _ => a

/-- Steps lead from one moment to another, through moments that are listed in order. -/
inductive Passes (start : Moment) : List Moment → Moment → Prop where
  | here : Passes start [] start
  | step {passed : List Moment} {a : Moment} (before : Passes start passed a) :
      Passes start (passed ++ [a]) (r.step a)

variable {r}

theorem Passes.trans {a b c : Moment} {front back : List Moment} (first : r.Passes a front b)
    (second : r.Passes b back c) : r.Passes a (front ++ back) c := by
  induction second with
  | here =>
    rw [List.append_nil]
    exact first
  | step _ inductionHypothesis =>
    rw [← List.append_assoc]
    exact .step inductionHypothesis

variable (r)

/-- Steps lead from one moment to another. -/
def Leads (a b : Moment) : Prop := ∃ passed, r.Passes a passed b

variable {r}

theorem Leads.refl (a : Moment) : r.Leads a a := ⟨[], .here⟩

theorem Leads.trans {a b c : Moment} (first : r.Leads a b) (second : r.Leads b c) :
    r.Leads a c := by
  obtain ⟨front, first⟩ := first
  obtain ⟨back, second⟩ := second
  exact ⟨front ++ back, first.trans second⟩

theorem leads_step (a : Moment) : r.Leads a (r.step a) := ⟨[a], .step .here⟩

theorem Leads.head {a b : Moment} (rest : r.Leads (r.step a) b) : r.Leads a b :=
  (leads_step a).trans rest

/-- A way that goes on goes on with the step from where it starts. -/
theorem Leads.eq_or_step {a b : Moment} (leads : r.Leads a b) : a = b ∨ r.Leads (r.step a) b := by
  obtain ⟨passed, passes⟩ := leads
  induction passes with
  | here => exact .inl rfl
  | step _ inductionHypothesis =>
    rcases inductionHypothesis with same | further
    · subst same
      exact .inr (.refl _)
    · exact .inr (further.trans (leads_step _))

/-- Go on with a task after something that is complete, and close the run otherwise. -/
def resume (task : Task) : Session × VisitEnd → Moment
  | (s, .completed) => ⟨task, s⟩
  | (s, ended) => ⟨.close ended, s⟩

/-- A commit after the last proposal. -/
theorem commit_completed_leads (wet : r.dry = false) (v : Begun) (accepted : List Patch)
    (s : Session) :
    r.Leads ⟨.commit v accepted .completed, s⟩
      (resume (.visit v.suggestor v.paths v.later)
        (r.offer v.suggestor.label v.source v.path .done accepted s)) := by
  apply Leads.head
  simp only [step, stepCommit, offer, wet, Bool.false_eq_true, if_false, settle]
  rcases s.commit v.source v.path accepted with ⟨m, _ | failure⟩
  · exact .refl _
  · exact .refl _

/-- A commit of what was accepted before the user quits. -/
theorem commit_quit_leads (v : Begun) (accepted : List Patch) (s : Session) (task : Task) :
    r.Leads ⟨.commit v accepted .quit, s⟩
      (resume task (settle v.source v.path accepted .quit s)) := by
  apply Leads.head
  simp only [step, stepCommit, settle]
  rcases s.commit v.source v.path accepted with ⟨m, _ | failure⟩
  · exact .refl _
  · exact .refl _

/-- Taking one proposal after the other comes to what the program offers. The induction is
on the stream. -/
theorem offer_leads (v : Begun) (stream : Proposals) (accepted : List Patch) (s : Session) :
    r.Leads ⟨.offer v stream accepted, s⟩
      (resume (.visit v.suggestor v.paths v.later)
        (r.offer v.suggestor.label v.source v.path stream accepted s)) := by
  induction stream generalizing accepted s with
  | done =>
    apply Leads.head
    simp only [step, stepOffer]
    cases dry : r.dry with
    | true =>
      simp only [offer, dry, if_true]
      exact .refl _
    | false => exact commit_completed_leads dry v accepted s
  | fault fault => exact leads_step _
  | stray type rest => exact leads_step _
  | note record rest inductionHypothesis => exact .head (inductionHypothesis ..)
  | act action rest inductionHypothesis =>
    apply Leads.head
    simp only [step, stepOffer, offer]
    rcases action.perform s.tree with ⟨tree, _ | fault⟩
    · exact inductionHypothesis ..
    · exact .refl _
  | propose p rest inductionHypothesis =>
    apply Leads.head
    simp only [step, stepOffer, offer]
    split
    · exact .refl _
    split
    · exact inductionHypothesis ..
    apply Leads.head
    simp only [step, stepDecide]
    rcases r.decide p { s with changes := s.changes + 1 } with ⟨m, fault | decision⟩
    · exact .refl _
    cases decision with
    | accept => exact inductionHypothesis ..
    | reject => exact inductionHypothesis ..
    | acceptAll => exact inductionHypothesis ..
    | quit => exact commit_quit_leads v accepted m _

/-- The induction is on the files. -/
theorem visit_leads (g : Suggestor) (paths : List Text) (later : List Suggestor) (s : Session) :
    r.Leads ⟨.visit g paths later, s⟩ (resume (.pass later) (r.visitAll g paths s)) := by
  induction paths generalizing s with
  | nil => exact leads_step _
  | cons path paths inductionHypothesis =>
    -- One visit, whether it is skipped or not, comes back to the files that are left.
    have visited : r.Leads ⟨.visit g (path :: paths) later, s⟩
        (resume (.visit g paths later) (r.visit g path s)) := by
      apply Leads.head
      simp only [step, stepVisit, visit]
      rcases readText _ path with fault | text
      · exact .refl _
      rcases skipped : g.skips text with fault | skips
      · simp only [skipped]
        exact .refl _
      cases skips with
      | true =>
        simp only [skipped]
        exact .refl _
      | false =>
        simp only [skipped]
        exact offer_leads ⟨g, _, path, paths, later⟩ _ [] _
    refine visited.trans ?_
    rw [visitAll]
    rcases r.visit g path s with ⟨m, ended⟩
    cases ended with
    | completed => exact inductionHypothesis m
    | quit => exact .refl _
    | failed failure => exact .refl _

/-- The induction is on the suggestors. -/
theorem pass_leads (suggestors : List Suggestor) (s : Session) :
    r.Leads ⟨.pass suggestors, s⟩ (resume (.close .completed) (r.passes suggestors s)) := by
  induction suggestors generalizing s with
  | nil => exact leads_step _
  | cons g later inductionHypothesis =>
    apply Leads.head
    simp only [step, passes, pass]
    rcases r.query.sortedPaths s.tree with fault | paths
    · exact .refl _
    refine (visit_leads g paths later s).trans ?_
    dsimp only
    rcases r.visitAll g paths s with ⟨m, ended⟩
    cases ended with
    | completed => exact inductionHypothesis m
    | quit => exact .refl _
    | failed failure => exact .refl _

/-- The steps of a run lead to its end. -/
theorem run_reached (r : Review) (s : Session) :
    r.Leads ⟨.search, s⟩ ⟨.finished (r.run s).2, (r.run s).1⟩ := by
  have swept : r.Leads ⟨.search, s⟩ (resume (.close .completed) (r.sweep s)) := by
    apply Leads.head
    simp only [step, sweep]
    split
    · exact pass_leads ..
    · exact .refl _
  refine swept.trans ?_
  rw [run]
  rcases r.sweep s with ⟨m, ended⟩
  cases ended <;> exact leads_step _

/-- Wherever the steps of a run lead, its end lies ahead. -/
theorem Passes.run_ahead {s : Session} {passed : List Moment} {a : Moment}
    (passes : r.Passes ⟨.search, s⟩ passed a) :
    r.Leads a ⟨.finished (r.run s).2, (r.run s).1⟩ := by
  induction passes with
  | here => exact r.run_reached s
  | step _ inductionHypothesis =>
    rcases inductionHypothesis.eq_or_step with same | further
    · rw [same]
      exact .refl _
    · exact further

end Review

end Emend
