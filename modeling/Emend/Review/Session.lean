import Emend.Config
import Emend.Patch.Apply
import Emend.Patch.Fitted
import Emend.Suggestor
import Emend.Tree.Replace

/-!
# Sessions of a review

A review goes through the files of a query, shows each proposed patch and asks what to do with it.
Its plan is fixed before it starts; its session is what changes on the way: the tree of files, the
console, the counters and whether everything is accepted from now on.

A review fails for a cause (`Failure`). Most causes are reported in the log and by the exit code. A
cause that nobody foresaw leaves the review as the fault it is.
-/

namespace Emend

/-- What a review is to do. -/
structure Review where
  query : Query
  suggestors : List Suggestor
  /-- Only report whether there is something to change. -/
  dry : Bool := false
  /-- A blank answer accepts a patch. -/
  defaultYes : Bool := false
  config : Config := {}
  /-- What to say in addition when there is something to change. -/
  remark : Value := .null

/-- Where a review stands. -/
inductive Phase where
  | idle
  | prompting
  | applying
  | complete
  deriving DecidableEq, Repr

/-- The name of a phase. -/
def Phase.name : Phase → String
  | idle => "idle"
  | prompting => "prompting_patch"
  | applying => "applying_file"
  | complete => "run_complete"

/-- How a review ends. -/
inductive ExitCode where
  | success
  | changesNeeded
  | usage
  | noInput
  | software
  deriving DecidableEq, Repr

namespace ExitCode

/-- The number of an exit code. -/
def number : ExitCode → Nat
  | success => 0
  | changesNeeded => 1
  | usage => 64
  | noInput => 66
  | software => 70

/-- The name of an exit code. -/
def name : ExitCode → String
  | success => "SUCCESS"
  | changesNeeded => "CHANGES_NEEDED"
  | usage => "USAGE"
  | noInput => "NO_INPUT"
  | software => "SOFTWARE"

end ExitCode

/-- Why a review fails. -/
inductive Failure where
  | missingTarget (target : Text)
  | unreadable (path : Text) (cause : Fault)
  | skipThrew (suggestor : String) (cause : Fault)
  | generateThrew (suggestor : String) (cause : Fault)
  | emptyPatch (patch : String)
  | overlapping (first second : Nat × Nat) (url : Option String)
  | unwritable (path : Text) (cause : Fault)
  /-- A fault that nobody foresaw. -/
  | unforeseen (fault : Fault)
  deriving DecidableEq, Repr

namespace Failure

/-- What the log says about a failure. -/
def message : Failure → Text
  | missingTarget target => "codemod target does not exist: ".toList ++ target
  | unreadable path _ => "Failed to read file: ".toList ++ path
  | skipThrew suggestor _ => (suggestor ++ ".should_skip() threw unexpectedly").toList
  | generateThrew suggestor _ => (suggestor ++ ".generate_patches() threw unexpectedly").toList
  | emptyPatch patch => ("Empty patch suggested: " ++ patch).toList
  | overlapping first second url => (Fault.overlap first second url).message.toList
  | unwritable path _ => "Failed to write file: ".toList ++ path
  | unforeseen fault => fault.message.toList

/-- The fault behind a failure. -/
def cause : Failure → Option Fault
  | unreadable _ cause => some cause
  | skipThrew _ cause => some cause
  | generateThrew _ cause => some cause
  | unwritable _ cause => some cause
  | _ => none

/-- The exit code for a failure: whether the input was at fault or something else. -/
def exitCode : Failure → ExitCode
  | missingTarget _ => .noInput
  | unreadable .. => .noInput
  | _ => .software

end Failure

/-- A question that was asked: where the review stood, and what was answered. -/
structure Asked where
  phase : Phase
  changes : Nat
  accepted : Nat
  written : Nat
  default : Text
  answer : Text
  deriving DecidableEq, Repr

/-- What changes during a review. -/
structure Session where
  tree : Tree
  console : Console
  log : Log := {}
  /-- Accept every further patch without asking. -/
  yesToAll : Bool := false
  phase : Phase := .idle
  /-- Patches that would change something. -/
  changes : Nat := 0
  /-- Accepted patches that have been committed. -/
  accepted : Nat := 0
  /-- Visits that wrote their file. -/
  written : Nat := 0
  asked : List Asked := []

namespace Session

/-- Put a record into the log, which goes to the error output. -/
def record (s : Session) (r : Record) : Session :=
  { s with console := s.console.writeErrors (s.log.shown r) }

/-- Note something for the curious. -/
def note (s : Session) (message : Text) : Session :=
  s.record { level := .debug, logger := "codemods.runner", message }

/-- Report a failure. -/
def report (s : Session) (f : Failure) : Session :=
  s.record { level := .error, logger := "codemods.runner", message := f.message, cause := f.cause }

/-- Write a line to the output. -/
def say (s : Session) (line : Text) : Session := { s with console := s.console.writeLine line }

/-- Write a line to the error output. -/
def sayError (s : Session) (line : Text) : Session :=
  { s with console := s.console.writeErrorLine line }

/-- Write the patches accepted for a source back to its file. Nothing is written without patches. -/
def save (s : Session) (source : Source) (path : Text) (accepted : List Patch) :
    Session × Option Failure :=
  match accepted with
  | [] => (s, none)
  | _ =>
    match Patch.apply source.text accepted with
    | .error (.overlap first second url) => (s, some (.overlapping first second url))
    | .error fault => (s, some (.unforeseen fault))
    | .ok text =>
      let s := s.record
        { level := .debug, logger := "codemods"
          message := ("writing " ++ Text.ofNat accepted.length ++ " patch(es) to ").toList ++ path }
      match s.tree.replace path (Text.encode text) with
      | .error fault => (s, some (.unwritable path (.file fault)))
      | .ok tree => ({ s with tree, written := s.written + 1 }, none)

/-- Commit the patches accepted for a source. -/
def commit (s : Session) (source : Source) (path : Text) (accepted : List Patch) :
    Session × Option Failure :=
  let s := { s with phase := .applying }.note "applying patches".toList
  match s.save source path accepted with
  | (s, none) => ({ s with accepted := s.accepted + accepted.length }, none)
  | (s, some failure) => (s, some failure)

end Session

end Emend
