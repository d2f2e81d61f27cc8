import Emend.Review.Visit

/-!
# Runs

A run makes one pass over the files for each suggestor. The files are listed anew for each pass, in
the order of their paths, because an earlier pass may have changed the tree. A run ends early when
the user quits or a visit fails.
-/

namespace Emend

namespace Review

/-- Visit files one after the other. -/
def visitAll (r : Review) (suggestor : Suggestor) :
    List Text → Session → Session × VisitEnd
  | [], s => (s, .completed)
  | path :: rest, s =>
    match r.visit suggestor path s with
    | (s, .completed) => visitAll r suggestor rest s
    | ended => ended

/-- One pass over all files. -/
def pass (r : Review) (suggestor : Suggestor) (s : Session) : Session × VisitEnd :=
  match r.query.sortedPaths s.tree with
  | .error fault => (s, .failed (.unforeseen fault))
  | .ok paths => r.visitAll suggestor paths s

/-- One pass for each suggestor. -/
def passes (r : Review) : List Suggestor → Session → Session × VisitEnd
  | [], s => (s, .completed)
  | suggestor :: rest, s =>
    match r.pass suggestor s with
    | (s, .completed) => passes r rest s
    | ended => ended

/-- Everything up to the summary. -/
def sweep (r : Review) (s : Session) : Session × VisitEnd :=
  if r.query.targetExists s.tree then r.passes r.suggestors (s.say "searching...".toList)
  else (s, .failed (.missingTarget r.query.target))

/-- The remark on needed changes, which must be a text if there is one. -/
def sayRemark (remark : Value) (s : Session) : Session × Option Fault :=
  if remark.isTruthy then
    let s := s.sayError []
    match remark with
    | .text t => (s.sayError t, none)
    | other => (s, some (.setting (.notLine other.typeName)))
  else (s, none)

/-- Sum up a run that reached its end. -/
def summarize (r : Review) (s : Session) : Session × Except Fault ExitCode :=
  if r.dry then
    if 0 < s.changes then
      let s := s.sayError (Text.ofNat s.changes ++ " change(s) needed.").toList
      match sayRemark r.remark s with
      | (s, none) => (s, .ok .changesNeeded)
      | (s, some fault) => (s, .error fault)
    else (s.say "No changes needed.".toList, .ok .success)
  else (s, .ok .success)

/-- Close a run according to how its visits ended. -/
def conclude (r : Review) : Session × VisitEnd → Session × Except Fault ExitCode
  | (s, .completed) => r.summarize (s.note "done".toList)
  | (s, .quit) => (s.note "quitting".toList, .ok .success)
  | (s, .failed (.unforeseen fault)) => (s, .error fault)
  | (s, .failed failure) => (s.report failure, .ok failure.exitCode)

/-- A run from a session on. An unforeseen fault leaves it as an error. -/
def run (r : Review) (s : Session) : Session × Except Fault ExitCode :=
  let (s, result) := r.conclude (r.sweep s)
  ({ s with phase := .complete }, result)

end Review

end Emend
