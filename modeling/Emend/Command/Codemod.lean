import Emend.Command.Arguments
import Emend.Review.Run

/-!
# A codemod as a command

A codemod is a review with the options that all codemods share. An option that is not known comes
before a word too many, and both before the help.
-/

namespace Emend

/-- How a review is carried out. -/
structure RunMode where
  verbose : Bool := false
  yesToAll : Bool := false
  /-- Write the log as to a terminal. -/
  assumeTerminal : Bool := false
  deriving DecidableEq, Repr

/-- Report a fault that nobody foresaw. -/
def Console.reportUncaught (c : Console) (fault : Fault) : Console :=
  let c := c.writeErrorLine "Uncaught exception:".toList
  (c.writeErrorLine fault.message.toList).writeErrorLine fault.trace.toList

/-- Carry out a review. A fault that nobody foresaw is reported. -/
def Review.execute (r : Review) (mode : RunMode) (tree : Tree) (console : Console) :
    Session × ExitCode :=
  let log : Log :=
    { verbose := mode.verbose, ansi := console.screen.errorAnsi || mode.assumeTerminal }
  match r.run { tree, console, log, yesToAll := mode.yesToAll } with
  | (s, .ok code) => (s, code)
  | (s, .error fault) => ({ s with console := s.console.reportUncaught fault }, .software)

namespace Command

/-- The options that all codemods share. -/
inductive CodemodOption where
  | help
  | verbose
  | yesToAll
  | failOnChanges
  | assumeTerminal
  deriving DecidableEq, Repr

/-- The names of the options that all codemods share. -/
def codemodSwitches : List (Switch CodemodOption) :=
  [{ names := ["-h", "--help"], target := .help },
    { names := ["-v", "--verbose"], target := .verbose },
    { names := ["--yes-to-all"], target := .yesToAll },
    { names := ["--fail-on-changes"], target := .failOnChanges },
    { names := ["--stderr-assume-tty"], target := .assumeTerminal }]

/-- The help on the options that all codemods share. -/
def codemodHelp : String :=
  "\n".intercalate
    ["Usage: codemod [OPTIONS]",
      "",
      "  Interactively apply suggested patches.",
      "",
      "Options:",
      "  -h, --help           Prints this help output.",
      "  -v, --verbose        Outputs all logging to stdout/stderr.",
      "  --yes-to-all         Forces all patches accepted without prompting the user.",
      "                       Useful for scripts.",
      "  --fail-on-changes    Returns a non-zero exit code if there are changes to be",
      "                       made. Will not make any changes (i.e. this is a dry-",
      "                       run).",
      "  --stderr-assume-tty  Forces ansi color highlighting of stderr. Useful for",
      "                       debugging."]

/-- The help where it is not known which command was meant. -/
def bareUsage : String := "Usage:  [OPTIONS]"

/-- Words in quotes with commas between them. -/
def quotedList (words : List Text) : Text := Text.joinWith ", ".toList (words.map Text.quoted)

/-- What a codemod says about its arguments. -/
def codemodMessage : UsageFault → Text
  | .noSuchOption name near =>
    let hint :=
      match near with
      | [] => []
      | [one] => " Did you mean ".toList ++ one.quoted ++ ['?']
      | several =>
        " (Did you mean one of: ".toList ++ quotedList (several.mergeSort Text.precedes) ++
          "?)".toList
    "No such option ".toList ++ name.quoted ++ '.' :: hint
  | .unexpectedValue option => "Option ".toList ++ option.quoted ++ " does not take a value.".toList
  | .missingValue option => "Option ".toList ++ option.quoted ++ " requires an argument.".toList
  | .extraArguments words =>
    let noun := if words.length = 1 then "argument" else "arguments"
    ("Got unexpected extra " ++ noun ++ " (").toList ++ Text.joinWith [' '] words ++ [')']
  | .missingArgument name => ("Missing argument '" ++ name ++ "'.").toList
  | .missingCommand => "Missing command.".toList
  | .noSuchCommand name _ => "No such command ".toList ++ name.quoted ++ ['.']

/-- The help that follows what a codemod says about its arguments. -/
def codemodUsage : UsageFault → String
  | .unexpectedValue _ => bareUsage
  | .missingValue _ => bareUsage
  | _ => codemodHelp

/-- The arguments of a codemod; it takes no other words. -/
def codemodArguments (words : List Text) : Except UsageFault (Arguments CodemodOption) := do
  let arguments ← Arguments.read codemodSwitches true words
  if arguments.words.isEmpty then .ok arguments else .error (.extraArguments arguments.words)

/-- A codemod. -/
structure Codemod where
  query : Query
  suggestors : List Suggestor
  config : Config := {}
  /-- Whether a blank answer accepts a patch; the configuration decides if nothing is given. -/
  defaultYes : Option Bool := none
  /-- Help on what is special to this codemod. -/
  help : Value := .null
  /-- What to say in addition when there is something to change. -/
  remark : Value := .null

namespace Codemod

/-- The review of a codemod. -/
def review (c : Codemod) (dry : Bool) : Review :=
  { query := c.query
    suggestors := c.suggestors
    dry
    defaultYes := c.defaultYes.getD c.config.defaultYes.isTruthy
    config := c.config
    remark := c.remark }

/-- Write the help of a codemod. What is special to it must be a text if there is any. -/
def writeHelp (c : Codemod) (console : Console) : Console × ExitCode :=
  let console := console.writeErrorLine "Global codemod options:".toList
  let console := (console.writeErrorLine []).writeErrorLine codemodHelp.toList
  if c.help.isTruthy then
    let console := console.writeErrorLine []
    let console := console.writeErrorLine "Additional options for this codemod:".toList
    match c.help with
    | .text t => (console.writeErrorLine t, .success)
    | other => (console.reportUncaught (.setting (.notLine other.typeName)), .software)
  else (console, .success)

/-- Say what is wrong with the arguments of a codemod. -/
def writeUsage (fault : UsageFault) (console : Console) : Console :=
  let console :=
    console.writeErrorLine ("Invalid codemod arguments: ".toList ++ codemodMessage fault)
  (console.writeErrorLine []).writeErrorLine (codemodUsage fault).toList

/-- Call a codemod with arguments. -/
def call (c : Codemod) (words : List Text) (tree : Tree) (console : Console) :
    Session × ExitCode :=
  match codemodArguments words with
  | .error fault => ({ tree, console := writeUsage fault console }, .usage)
  | .ok arguments =>
    if arguments.has .help then
      let (console, code) := c.writeHelp console
      ({ tree, console }, code)
    else
      let mode : RunMode :=
        { verbose := arguments.has .verbose
          yesToAll := arguments.has .yesToAll
          assumeTerminal := arguments.has .assumeTerminal }
      (c.review (arguments.has .failOnChanges)).execute mode tree console

end Codemod

end Command

end Emend
