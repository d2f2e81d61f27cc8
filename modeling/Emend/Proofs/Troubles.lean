import Emend.Proofs.Progress
import Emend.Proofs.Stitching

/-!
# Troubles

What can go wrong in a review is told here apart from how a review comes across it.
A file has trouble if it cannot be read or is no text. A stream of proposals has
trouble if it throws, if something in it is no patch or if a patch changes nothing.
A patch has trouble in being shown if a number that has to be written for this has
too many digits. Patches have trouble in being committed if one of them is for
another text, if two of them overlap or if the file cannot be written.

Only what is asked for counts. A stream is asked for no more after the answer to
quit, so trouble that would come later is never met; in a dry run, in which nobody
answers, everything is asked for and nothing is shown or committed. With settings of
the right types nothing else can go wrong, and then a visit fails exactly for the
first trouble that it meets.
-/

namespace Emend

/-- What can go wrong. -/
inductive Trouble where
  /-- There is nothing at the start of the query. -/
  | missingTarget
  /-- A listed file cannot be read. -/
  | unreadable
  /-- The bytes of a listed file are no text. -/
  | undecodable
  /-- The files cannot be listed. -/
  | unlistable
  /-- A suggestor throws. -/
  | thrown
  /-- A suggestor yields something that is no patch. -/
  | stray
  /-- A patch changes nothing. -/
  | emptyPatch
  /-- A patch cannot be shown. -/
  | unshowable
  /-- A patch is for another text. -/
  | foreignPatch
  /-- Two patches for a file overlap. -/
  | overlap
  /-- A file cannot be written. -/
  | unwritable
  deriving DecidableEq, Repr

/-- The exit code for a trouble: whether it is with the input. -/
def Trouble.exitCode : Trouble → ExitCode
  | missingTarget | unreadable | undecodable => .noInput
  | unlistable | thrown | stray | emptyPatch | unshowable | foreignPatch | overlap | unwritable =>
    .software

/-- The trouble that a failure is about. -/
def Failure.trouble : Failure → Trouble
  | .missingTarget _ => .missingTarget
  | .unreadable _ (.undecodable _) => .undecodable
  | .unreadable _ _ => .unreadable
  | .skipThrew .. => .thrown
  | .generateThrew .. => .thrown
  | .emptyPatch _ => .emptyPatch
  | .overlapping .. => .overlap
  | .unwritable .. => .unwritable
  | .unforeseen (.notPatch ..) => .stray
  | .unforeseen (.foreignPatch _) => .foreignPatch
  | .unforeseen .tooLongNumber => .unshowable
  | .unforeseen _ => .unlistable

/-- The trouble that ended a visit, if any did. -/
def VisitEnd.trouble : VisitEnd → Option Trouble
  | .failed failure => some failure.trouble
  | .completed | .quit => none

theorem Failure.exitCode_trouble (f : Failure) : f.trouble.exitCode = f.exitCode := by
  cases f with
  | unreadable path cause => cases cause <;> rfl
  | unforeseen fault => cases fault <;> rfl
  | _ => rfl

namespace Proposals

/-- The first trouble with a stream whose actions are carried out on a tree, if some
patches are hidden because they cannot be shown. -/
def trouble (hidden : Patch → Bool) (t : Tree) : Proposals → Option Trouble
  | done => none
  | fault _ => some .thrown
  | propose p rest =>
    if p.isNoop then some .emptyPatch
    else if hidden p then some .unshowable
    else rest.trouble hidden t
  | stray .. => some .stray
  | act action rest =>
    match action.perform t with
    | (_, some _) => some .thrown
    | (t, none) => rest.trouble hidden t
  | note _ rest => rest.trouble hidden t

/-- The stream up to the patch at which the answers quit. -/
def upToQuit (defaultYes : Bool) : Proposals → Answers → Proposals
  | done, _ => done
  | fault f, _ => fault f
  | propose p rest, a =>
    propose p (if (a.next defaultYes).1 = .quit then done
      else rest.upToQuit defaultYes (a.next defaultYes).2)
  | stray type rest, a => stray type (rest.upToQuit defaultYes a)
  | act action rest, a => act action (rest.upToQuit defaultYes a)
  | note record rest, a => note record (rest.upToQuit defaultYes a)

end Proposals

/-- The trouble with committing patches to a file of a tree. -/
def Tree.commitTrouble (t : Tree) (text path : Text) (accepted : List Patch) : Option Trouble :=
  if accepted.isEmpty then none
  else if ∃ p ∈ accepted, p.source.text ≠ text then some .foreignPatch
  else if ¬ accepted.Pairwise Patch.Apart then some .overlap
  else
    match t.replace path (Text.encode (Patch.stitch text (Patch.sort accepted))) with
    | .error _ => some .unwritable
    | .ok _ => none

/-- The number of lines that a setting of the right type stands for. -/
def Value.lines : Value → Int
  | .int n => n
  | _ => 0

namespace Review

/-- The number of lines that there are for a diff on a screen. -/
def diffLines (r : Review) (screen : Screen) : Int :=
  if screen.ansi then max r.config.minLines.lines (screen.rows - r.config.reservedLines.lines)
  else r.config.fallbackLines.lines

/-- The numbers that have to be written to show a patch: the number of the last line of
its excerpt, and how many lines there are for its diff. -/
def shownNumbers (r : Review) (screen : Screen) (p : Patch) : List Int :=
  [p.excerptBottom r.config.contextLines.lines + 1, r.diffLines screen]

/-- Whether a patch cannot be shown because of a number that cannot be written. A dry run
shows nothing. -/
def hides (r : Review) (screen : Screen) (p : Patch) : Bool :=
  !r.dry && (r.shownNumbers screen p).any (!Text.isWritable ·)

/-- The part of a stream that a review asks for. -/
def pulled (r : Review) (stream : Proposals) (a : Answers) : Proposals :=
  if r.dry then stream else stream.upToQuit r.defaultYes a

/-- The first trouble with a stream, or else with committing what is accepted of it
in addition to other patches. -/
def streamTrouble (r : Review) (screen : Screen) (text path : Text) (stream : Proposals)
    (accepted : List Patch) (t : Tree) (a : Answers) : Option Trouble :=
  let harvest := (r.pulled stream a).harvest t
  ((r.pulled stream a).trouble (r.hides screen) t).or
    (if r.dry then none
    else harvest.tree.commitTrouble text path
      (accepted ++ (a.decisions r.defaultYes harvest.patches).accepted))

/-- The first trouble with a file. -/
def fileTrouble (r : Review) (screen : Screen) (g : Suggestor) (path : Text) (t : Tree)
    (a : Answers) : Option Trouble :=
  match readText t path with
  | .error (.undecodable _) => some .undecodable
  | .error _ => some .unreadable
  | .ok text =>
    match g.skips text with
    | .error _ => some .thrown
    | .ok true => none
    | .ok false =>
      r.streamTrouble screen text path (g.proposals ⟨text, some (String.ofList path)⟩) [] t a

/-- The settings have the types that they should have. -/
structure WellTyped (r : Review) : Prop where
  contextLines : ∃ n, r.config.contextLines = .int n
  minLines : ∃ n, r.config.minLines = .int n
  fallbackLines : ∃ n, r.config.fallbackLines = .int n
  reservedLines : ∃ n, r.config.reservedLines = .int n
  remark : r.remark = .null ∨ ∃ t, r.remark = .text t

variable {r : Review}

/-- Settings that are whole numbers leave a whole number of lines. -/
theorem room_int (screen : Screen) (reserved least fallback : Int) :
    screen.room (.int reserved) (.int least) (.int fallback) =
      .ok (.int (if screen.ansi then max least (screen.rows - reserved) else fallback)) := by
  rw [Screen.room]
  cases screen.ansi with
  | false => rfl
  | true =>
    have above := Setting.isAbove_int (screen.rows - reserved) least
    simp only [Value.number?, Number.minus, if_true, above, decide_eq_true_eq]
    split
    · rename_i more
      rw [Int.max_eq_right (Int.le_of_lt more)]
      rfl
    · rename_i less
      rw [Int.max_eq_left (Int.not_lt.mp less)]

/-- With settings of the right types the excerpt of a patch is in the way only if the
number of its last line cannot be written. -/
theorem WellTyped.excerptObstacle (typed : r.WellTyped) (p : Patch) :
    r.excerptObstacle p =
      if Text.isWritable (p.excerptBottom r.config.contextLines.lines + 1) then none
      else some .tooLongNumber := by
  obtain ⟨context, isContext⟩ := typed.contextLines
  rw [Review.excerptObstacle, isContext, p.excerptBy_int, Value.lines]
  cases writable : Text.isWritable (p.excerptBottom context + 1) with
  | true =>
    rw [p.excerpt_of_writable writable]
    rfl
  | false =>
    rw [p.excerpt_of_unwritable writable]
    rfl

/-- Likewise its diff, if the number of lines for it cannot be written. -/
theorem WellTyped.diffObstacle (typed : r.WellTyped) (p : Patch) (screen : Screen) :
    r.diffObstacle p screen =
      if Text.isWritable (r.diffLines screen) then none else some .tooLongNumber := by
  obtain ⟨least, isLeast⟩ := typed.minLines
  obtain ⟨fallback, isFallback⟩ := typed.fallbackLines
  obtain ⟨reserved, isReserved⟩ := typed.reservedLines
  have room : screen.room r.config.reservedLines r.config.minLines r.config.fallbackLines =
      .ok (.int (r.diffLines screen)) := by
    rw [diffLines, isLeast, isFallback, isReserved]
    exact room_int screen reserved least fallback
  rw [Review.diffObstacle, room]
  simp only [Value.shown, Value.literal]
  cases writable : Text.isWritable (r.diffLines screen) with
  | true =>
    rw [Text.writeInt_of_writable writable, p.diffBy_int]
    rfl
  | false =>
    rw [Text.writeInt_of_unwritable writable]
    rfl

/-- With settings of the right types a patch can be shown on a screen unless it is
hidden. -/
theorem WellTyped.obstacle (typed : r.WellTyped) (wet : r.dry = false) (p : Patch)
    (screen : Screen) :
    r.obstacle p screen = if r.hides screen p then some .tooLongNumber else none := by
  rw [Review.obstacle, typed.excerptObstacle, typed.diffObstacle, hides, shownNumbers, wet,
    List.any_cons, List.any_cons, List.any_nil]
  cases Text.isWritable (p.excerptBottom r.config.contextLines.lines + 1) <;>
    cases Text.isWritable (r.diffLines screen) <;> rfl

/-- Settling fails for the trouble with committing. -/
theorem settle_trouble (source : Source) (path : Text) (accepted : List Patch)
    (planned : VisitEnd) (calm : planned.trouble = none) (s : Session) :
    (settle source path accepted planned s).2.trouble =
      s.tree.commitTrouble source.text path accepted := by
  cases accepted with
  | nil => exact calm
  | cons p rest =>
    rw [Tree.commitTrouble, if_neg (by simp)]
    rcases Patch.apply_cases source.text (p :: rest) with
      ⟨foreign, _, refused⟩ | ⟨native, meeting, _, _, _, refused⟩ | ⟨native, apart, applied⟩
    · rw [if_pos foreign]
      simp [settle, Session.commit, Session.save, refused, VisitEnd.trouble, Failure.trouble]
    · rw [if_neg (by simpa using native), if_pos meeting]
      simp [settle, Session.commit, Session.save, refused, VisitEnd.trouble, Failure.trouble]
    · rw [if_neg (by simpa using native), if_neg (fun meeting => meeting apart)]
      simp only [settle, Session.commit, Session.save, applied, Session.note, Session.record]
      cases s.tree.replace path
          (Text.encode (Patch.stitch source.text (Patch.sort (p :: rest)))) with
      | error fault => rfl
      | ok tree => exact calm

/-- The end of a stream settles what was accepted, unless the run is dry. -/
theorem offer_done_trouble (r : Review) (label : String) (source : Source) (path : Text)
    (accepted : List Patch) (s : Session) :
    (r.offer label source path .done accepted s).2.trouble =
      if r.dry then none else s.tree.commitTrouble source.text path accepted := by
  rw [offer]
  split
  · rfl
  · have settled := settle_trouble source path accepted .completed rfl s
    rw [← settled]
    rcases settle source path accepted .completed s with ⟨m, _ | _ | _⟩ <;> rfl

/-- In a dry run a patch is passed over. -/
theorem streamTrouble_propose_dry (dry : r.dry = true) {p : Patch} (differs : p.isNoop = false)
    (screen : Screen) (text path : Text) (rest : Proposals) (accepted : List Patch) (t : Tree)
    (a : Answers) :
    r.streamTrouble screen text path (.propose p rest) accepted t a =
      r.streamTrouble screen text path rest accepted t a := by
  simp [streamTrouble, pulled, dry, Proposals.trouble, differs, hides]

/-- A patch that is hidden is a trouble before it is decided on. -/
theorem streamTrouble_propose_hidden (wet : r.dry = false) {p : Patch}
    (differs : p.isNoop = false) {screen : Screen} (hidden : r.hides screen p = true)
    (text path : Text) (rest : Proposals) (accepted : List Patch) (t : Tree) (a : Answers) :
    r.streamTrouble screen text path (.propose p rest) accepted t a = some .unshowable := by
  simp [streamTrouble, pulled, wet, Proposals.upToQuit, Proposals.trouble, differs, hidden]

/-- At the patch at which the answers quit, what was accepted before is committed. -/
theorem streamTrouble_propose_quit (wet : r.dry = false) {p : Patch} (differs : p.isNoop = false)
    {screen : Screen} (shown : r.hides screen p = false) {a left : Answers}
    (next : a.next r.defaultYes = (.quit, left)) (text path : Text) (rest : Proposals)
    (accepted : List Patch) (t : Tree) :
    r.streamTrouble screen text path (.propose p rest) accepted t a =
      t.commitTrouble text path accepted := by
  simp [streamTrouble, pulled, wet, Proposals.upToQuit, Proposals.trouble, Proposals.harvest, next,
    differs, shown, Answers.decisions_quit next, Decisions.accepted, Decision.accepts]

/-- After any other patch the rest of the stream follows. -/
theorem streamTrouble_propose_next (wet : r.dry = false) {p : Patch} (differs : p.isNoop = false)
    {screen : Screen} (shown : r.hides screen p = false) {a left : Answers} {decision : Decision}
    (next : a.next r.defaultYes = (decision, left)) (goesOn : decision ≠ .quit) (text path : Text)
    (rest : Proposals) (accepted : List Patch) (t : Tree) :
    r.streamTrouble screen text path (.propose p rest) accepted t a =
      r.streamTrouble screen text path rest (accepted ++ if decision.accepts then [p] else []) t
        left := by
  have taken := Answers.decisions_next next goesOn p
    ((rest.upToQuit r.defaultYes left).harvest t).patches
  simp only [streamTrouble, pulled, wet, Proposals.upToQuit, Proposals.trouble, Proposals.harvest,
    next, if_neg goesOn, differs, shown, Bool.false_eq_true, if_false, taken.2.2,
    List.append_assoc]

/-- Going through a stream fails for the first trouble with it. The induction is on
the stream: `accepted` grows by what the answers accept, and the tree by what the
stream does. -/
theorem offer_trouble (typed : r.WellTyped) (label : String) (source : Source) (path : Text)
    (stream : Proposals) (accepted : List Patch) (s : Session) :
    (r.offer label source path stream accepted s).2.trouble =
      r.streamTrouble s.console.screen source.text path stream accepted s.tree s.answers := by
  induction stream generalizing accepted s with
  | done =>
    rw [offer_done_trouble, streamTrouble, pulled]
    simp [Proposals.upToQuit, Proposals.trouble, Proposals.harvest, Answers.decisions,
      Decisions.accepted]
  | fault fault =>
    simp [offer, streamTrouble, pulled, Proposals.upToQuit, Proposals.trouble, VisitEnd.trouble,
      Failure.trouble]
  | stray type rest inductionHypothesis =>
    rw [streamTrouble, pulled]
    cases r.dry <;> rfl
  | note record rest inductionHypothesis =>
    rw [offer, inductionHypothesis, streamTrouble, streamTrouble, pulled, pulled]
    cases r.dry <;> rfl
  | act action rest inductionHypothesis =>
    rcases performed : action.perform s.tree with ⟨t, _ | fault⟩
    · simp only [offer, performed]
      rw [inductionHypothesis, streamTrouble, streamTrouble, pulled, pulled]
      cases r.dry <;>
        simp [Proposals.upToQuit, Proposals.trouble, Proposals.harvest, performed, Session.answers]
    · simp only [offer, performed, streamTrouble, pulled, Proposals.upToQuit]
      cases r.dry <;> simp [Proposals.trouble, performed, VisitEnd.trouble, Failure.trouble]
  | propose p rest inductionHypothesis =>
    cases differs : p.isNoop with
    | true =>
      simp only [offer, differs, if_true, streamTrouble, pulled, Proposals.upToQuit]
      cases r.dry <;> simp [Proposals.trouble, differs, VisitEnd.trouble, Failure.trouble]
    | false =>
    cases dry : r.dry with
    | true =>
      rw [streamTrouble_propose_dry dry differs]
      simp only [offer, differs, dry, Bool.false_eq_true, if_false, if_true]
      exact inductionHypothesis accepted _
    | false =>
    have obstacle := typed.obstacle dry p s.console.screen
    cases hidden : r.hides s.console.screen p with
    | true =>
      rw [hidden, if_pos rfl] at obstacle
      obtain ⟨m, _, ended⟩ :=
        offer_of_obstacle dry differs obstacle label source path rest accepted
      rw [ended, streamTrouble_propose_hidden dry differs hidden]
      rfl
    | false =>
      rw [hidden, if_neg Bool.false_ne_true] at obstacle
      obtain ⟨m, decided, offered⟩ :=
        offer_of_shown dry differs obstacle label source path rest accepted
      rw [offered]
      rcases next : s.answers.next r.defaultYes with ⟨decision, left⟩
      have answers : m.answers = left := decided.answers.trans (congrArg Prod.snd next)
      by_cases quit : decision = .quit
      · subst quit
        rw [if_pos rfl, streamTrouble_propose_quit dry differs hidden next,
          settle_trouble _ _ _ _ rfl]
        rw [decided.tree]
      · rw [if_neg quit, streamTrouble_propose_next dry differs hidden next quit,
          inductionHypothesis, decided.tree, decided.screen, answers]

/-- A visit fails exactly for the first trouble with its file. -/
theorem visit_trouble (typed : r.WellTyped) (g : Suggestor) (path : Text) (s : Session) :
    (r.visit g path s).2.trouble =
      r.fileTrouble s.console.screen g path s.tree s.answers := by
  have noted : (s.note ("file: ".toList ++ path)).tree = s.tree := rfl
  simp only [visit, fileTrouble, noted]
  cases readText s.tree path with
  | error fault => cases fault <;> rfl
  | ok text =>
    dsimp only
    rcases g.skips text with fault | _ | _
    · rfl
    · exact offer_trouble typed g.label _ path _ [] _
    · rfl

end Review

end Emend
