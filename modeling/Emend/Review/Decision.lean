import Emend.Review.Session

/-!
# Decisions

A patch is shown as an excerpt and as a diff, and a decision is asked for. No question is asked once
everything is to be accepted.
-/

namespace Emend

/-- What to do with a patch. -/
inductive Decision where
  | accept
  | reject
  | acceptAll
  | quit
  deriving DecidableEq, Repr

namespace Decision

/-- The answers that are understood. -/
def choices : Text := ['y', 'n', 'A', 'q']

/-- The decision that an answer stands for. -/
def ofAnswer (answer : Text) : Decision :=
  if answer = ['y'] then accept
  else if answer = ['n'] then reject
  else if answer = ['A'] then acceptAll
  else quit

end Decision

namespace Review

/-- The question that is asked. -/
def question (defaultYes : Bool) : String :=
  if defaultYes then "Accept change (y = yes [default], n = no, A = yes to all, q = quit)? "
  else "Accept change (y = yes, n = no [default], A = yes to all, q = quit)? "

/-- The answer that a blank line stands for. -/
def defaultAnswer (defaultYes : Bool) : Text := if defaultYes then ['y'] else ['n']

/-- Ask for a decision. -/
def ask (r : Review) (s : Session) : Session × Decision :=
  let s := s.say (question r.defaultYes).toList
  let default := defaultAnswer r.defaultYes
  let (answer, console) := s.console.prompt Decision.choices default
  let asked : Asked :=
    { phase := s.phase, changes := s.changes, accepted := s.accepted, written := s.written,
      default, answer }
  ({ s with console, asked := s.asked ++ [asked] }, .ofAnswer answer)

/-- Show the excerpt of a patch on a cleared screen. -/
def showExcerpt (r : Review) (p : Patch) (s : Session) : Session × Option Fault :=
  let s := { s with phase := .prompting, console := s.console.clear }
  match p.excerptBy r.config.contextLines with
  | .error fault => (s, some fault)
  | .ok fragments => ({ s with console := (s.console.writeFragments fragments).writeLine [] }, none)

/-- Show the diff of a patch in the room that is left. -/
def showDiff (r : Review) (p : Patch) (s : Session) : Session × Option Fault :=
  let config := r.config
  match s.console.screen.room config.reservedLines config.minLines config.fallbackLines with
  | .error fault => (s, some fault)
  | .ok room =>
    match room.shown with
    | .error fault => (s, some fault)
    | .ok size =>
      let s := s.note ("diff size: ".toList ++ size)
      match p.diffBy room with
      | .error fault => (s, some fault)
      | .ok fragments =>
        ({ s with console := (s.console.writeFragments fragments).writeLine [] }, none)

/-- Show a patch and come to a decision. -/
def decide (r : Review) (p : Patch) (s : Session) : Session × Except Fault Decision :=
  match r.showExcerpt p s with
  | (s, some fault) => (s, .error fault)
  | (s, none) =>
    match r.showDiff p s with
    | (s, some fault) => (s, .error fault)
    | (s, none) =>
      if s.yesToAll then
        (s.note "skipped prompt because yes_to_all is set".toList, .ok .accept)
      else
        let (s, decision) := r.ask s
        (s, .ok decision)

end Review

end Emend
