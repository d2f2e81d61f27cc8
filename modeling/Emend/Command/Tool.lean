import Emend.Command.Codemod
import Emend.Command.Transform
import Emend.Config.File

/-!
# The tool

A command line with three commands: one lists the transforms, one carries out a transform, and one
writes the default configuration. Each has a page of help.

An option that cannot be read is reported first. The help comes next, before words that are missing
or too many.
-/

namespace Emend.Command

/-- The commands of the tool. -/
inductive ToolCommand where
  | transforms
  | run
  | initConfig
  deriving DecidableEq, Repr

namespace ToolCommand

/-- All commands. -/
def all : List ToolCommand := [transforms, run, initConfig]

/-- The name of a command. -/
def name : ToolCommand → String
  | transforms => "transforms"
  | run => "run"
  | initConfig => "init-config"

/-- What follows the name of a command. -/
def usage : ToolCommand → String
  | transforms => "[OPTIONS]"
  | run => "[OPTIONS] TRANSFORM [PATH]"
  | initConfig => "[OPTIONS]"

/-- The help on a command below its usage. -/
def help : ToolCommand → List String
  | transforms =>
    ["",
      "  List the built-in transforms.",
      "",
      "Options:",
      "  --help  Show this message and exit."]
  | run =>
    ["",
      "  Apply a built-in transform interactively.",
      "",
      "Arguments:",
      "  TRANSFORM  Built-in transform to apply (see `transforms`)  [required]",
      "  [PATH]     File or directory to run over  [default: .]",
      "",
      "Options:",
      "  -p, --param TEXT              Transform parameter as key=value",
      "  --recursive / --no-recursive  Descend into subdirectories  [default:",
      "                                recursive]",
      "  --default-yes / --default-no  What pressing enter means",
      "  -v, --verbose                 Outputs all logging to stdout/stderr.",
      "  --yes-to-all                  Accept every patch without prompting.",
      "  --fail-on-changes             Exit non-zero if there are changes to be made,",
      "                                without making them.",
      "  --stderr-assume-tty           Forces ansi color highlighting of stderr.",
      "  --help                        Show this message and exit."]
  | initConfig =>
    ["",
      "  Write the default configuration to ~/.codemod.toml.",
      "",
      "Options:",
      "  --force  Overwrite an existing file",
      "  --help   Show this message and exit."]

end ToolCommand

/-- What follows the name of the tool. -/
def toolUsage : String := "[OPTIONS] COMMAND [ARGS]..."

/-- The help on the tool below its usage. -/
def toolHelp : List String :=
  ["",
    "  Codemod - review and apply source transformations one patch at a time.",
    "",
    "Options:",
    "  --help  Show this message and exit.",
    "",
    "Commands:",
    "  transforms   List the built-in transforms.",
    "  run          Apply a built-in transform interactively.",
    "  init-config  Write the default configuration to ~/.codemod.toml."]

/-- The options of the tool and of its commands. -/
inductive ToolOption where
  | help
  | parameter
  | recursive
  | notRecursive
  | defaultYes
  | defaultNo
  | verbose
  | yesToAll
  | failOnChanges
  | assumeTerminal
  | force
  deriving DecidableEq, Repr

/-- The option that every page has. -/
def helpSwitch : Switch ToolOption := { names := ["--help"], target := .help }

/-- The options of a command. -/
def ToolCommand.switches : ToolCommand → List (Switch ToolOption)
  | .transforms => [helpSwitch]
  | .run =>
    [{ names := ["--param", "-p"], target := .parameter, takesValue := true },
      { names := ["--recursive"], target := .recursive },
      { names := ["--no-recursive"], target := .notRecursive },
      { names := ["--default-yes"], target := .defaultYes },
      { names := ["--default-no"], target := .defaultNo },
      { names := ["--verbose", "-v"], target := .verbose },
      { names := ["--yes-to-all"], target := .yesToAll },
      { names := ["--fail-on-changes"], target := .failOnChanges },
      { names := ["--stderr-assume-tty"], target := .assumeTerminal },
      helpSwitch]
  | .initConfig => [{ names := ["--force"], target := .force }, helpSwitch]

/-- Where the tool runs. -/
structure Place where
  /-- The name under which the tool was called. -/
  program : String
  /-- The home directory. -/
  home : Text
  screen : Screen := {}

/-- How a call of the tool ends. -/
structure Outcome where
  code : Nat
  tree : Tree
  console : Console
  /-- A fault that nobody caught. -/
  fault : Option Fault := none

/-- What the tool says about its arguments. -/
def toolMessage : UsageFault → Text
  | .noSuchOption name near =>
    let hint :=
      if near.isEmpty then []
      else
        " (Possible options: ".toList ++
          Text.joinWith ", ".toList (near.mergeSort Text.precedes) ++ [')']
    "No such option: ".toList ++ name ++ hint
  | .extraArguments words =>
    "Got unexpected extra argument(s) (".toList ++ Text.joinWith [' '] words ++ [')']
  | .noSuchCommand name near =>
    let hint := if near.isEmpty then [] else " Did you mean ".toList ++ quotedList near ++ ['?']
    "No such command ".toList ++ name.quoted ++ '.' :: hint
  | fault => codemodMessage fault

namespace Place

/-- The name of the tool or of one of its commands. -/
def callName (p : Place) : Option ToolCommand → String
  | none => p.program
  | some command => p.program ++ " " ++ command.name

/-- The first line of a page. -/
def usageLine (p : Place) (command : Option ToolCommand) : String :=
  "Usage: " ++ p.callName command ++ " " ++
    match command with
    | none => toolUsage
    | some c => c.usage

/-- A page of help. -/
def page (p : Place) (command : Option ToolCommand) : List String :=
  p.usageLine command ::
    match command with
    | none => toolHelp
    | some c => c.help

/-- Write lines to the output. -/
def writeLines (console : Console) (lines : List String) : Console :=
  lines.foldl (fun c line => c.writeLine line.toList) console

/-- Write a page of help. -/
def showPage (p : Place) (command : Option ToolCommand) (tree : Tree) (console : Console) :
    Outcome :=
  { code := ExitCode.success.number, tree, console := writeLines console (p.page command) }

/-- Whether the usage is shown with a fault; a wrong value is reported alone. -/
def showsUsage : UsageFault → Bool
  | .unexpectedValue _ => false
  | .missingValue _ => false
  | _ => true

/-- Say what is wrong with the arguments. -/
def refuse (p : Place) (command : Option ToolCommand) (fault : UsageFault) (tree : Tree)
    (console : Console) : Outcome :=
  let hint := "Try '" ++ p.callName command ++ " --help' for help."
  let console :=
    if showsUsage fault then
      ((console.writeErrorLine (p.usageLine command).toList).writeErrorLine
        hint.toList).writeErrorLine []
    else console
  { code := ExitCode.usage.number
    tree
    console := console.writeErrorLine ("Error: ".toList ++ toolMessage fault) }

/-- The list of transforms, their names in a column. -/
def transformLines : List String :=
  transforms.map fun b =>
    let name := transformName b
    name ++ String.ofList (List.replicate (28 - name.length) ' ') ++ " " ++ transformSummary b

/-- The last of two opposite options that is given. -/
def lastOf (a : Arguments ToolOption) (yes no : ToolOption) : Option Bool :=
  (a.options.filterMap fun (option, _) =>
    if option = yes then some true else if option = no then some false else none).getLast?

/-- The files under a path: one file, or those of a directory that a transform applies to. -/
def queryFor (tree : Tree) (path : Text) (filter : PathFilter) (recursive : Bool)
    (config : Config) : Except Fault Query :=
  let path := Path.normalize path
  match tree.probe path with
  | .error fault => .error (.file fault)
  | .ok (some (.file ..)) => .ok (.single path)
  | .ok _ => do
    let globs ← Config.globs config.ignoredGlobs
    .ok (.inDirectory path filter recursive config.followLinks.isTruthy globs)

/-- Carry out a transform. -/
def carryOut (p : Place) (a : Arguments ToolOption) (b : Builtin) (suggestor : Suggestor)
    (path : Text) (tree : Tree) (console : Console) : Outcome :=
  match Config.load tree (Config.pathIn p.home) with
  | .error fault => { code := 1, tree, console, fault := some fault }
  | .ok (config, warning) =>
    let console := warning.toList.foldl (fun c r => c.writeErrorLine r.message) console
    let recursive := (lastOf a .recursive .notRecursive).getD true
    match queryFor tree path (transformFilter b) recursive config with
    | .error fault => { code := 1, tree, console, fault := some fault }
    | .ok query =>
      let review : Review :=
        { query
          suggestors := [suggestor]
          dry := a.has .failOnChanges
          defaultYes := (lastOf a .defaultYes .defaultNo).getD config.defaultYes.isTruthy
          config }
      let mode : RunMode :=
        { verbose := a.has .verbose
          yesToAll := a.has .yesToAll
          assumeTerminal := a.has .assumeTerminal }
      let screen := { console.screen with clears := config.clearScreen.isTruthy }
      let (s, code) := review.execute mode tree { console with screen }
      { code := code.number, tree := s.tree, console := s.console }

/-- The command that carries out a transform. -/
def run (p : Place) (a : Arguments ToolOption) (name path : Text) (tree : Tree)
    (console : Console) : Outcome :=
  let built := do
    let parameters ← readParameters (a.valuesOf .parameter)
    buildTransform name parameters
  match built with
  | .error bad =>
    { code := ExitCode.usage.number
      tree
      console := console.writeErrorLine ("Invalid codemod arguments: ".toList ++ bad.formatted) }
  | .ok (b, suggestor) => p.carryOut a b suggestor path tree console

/-- The command that writes the default configuration. -/
def initConfig (p : Place) (force : Bool) (tree : Tree) (console : Console) : Outcome :=
  let path := Config.pathIn p.home
  let written : Outcome :=
    match Config.default.save tree path with
    | (tree, none) => { code := 0, tree, console := console.writeLine ("Wrote ".toList ++ path) }
    | (tree, some fault) => { code := 1, tree, console, fault := some fault }
  match tree.probe path with
  | .error fault => { code := 1, tree, console, fault := some (.file fault) }
  | .ok none => written
  | .ok (some _) =>
    if force then written
    else
      { code := 1
        tree
        console := console.writeErrorLine ("Config file already exists at ".toList ++ path ++
          " (use --force to overwrite)".toList) }

/-- Call a command with the words after its name. -/
def callCommand (p : Place) (command : ToolCommand) (words : List Text) (tree : Tree)
    (console : Console) : Outcome :=
  match Arguments.read command.switches true words with
  | .error fault => p.refuse (some command) fault tree console
  | .ok a =>
    if a.has .help then p.showPage (some command) tree console
    else
      let refuse (fault : UsageFault) := p.refuse (some command) fault tree console
      match command, a.words with
      | .transforms, [] => { code := 0, tree, console := writeLines console transformLines }
      | .initConfig, [] => p.initConfig (a.has .force) tree console
      | .run, [] => refuse (.missingArgument transformHint)
      | .run, [name] => p.run a name ['.'] tree console
      | .run, [name, path] => p.run a name path tree console
      | .run, _ :: _ :: rest => refuse (.extraArguments rest)
      | _, rest => refuse (.extraArguments rest)

/-- What a first word that names no command leads to. A word that looks like an option is read as
one. -/
def strangeCommand (p : Place) (name : Text) (rest : List Text) (tree : Tree)
    (console : Console) : Outcome :=
  let near := similarWords name (ToolCommand.all.map fun c => c.name.toList)
  match Arguments.read [helpSwitch] false (name :: rest) with
  | .error fault => p.refuse none fault tree console
  | .ok a =>
    if a.has .help then p.showPage none tree console
    else p.refuse none (.noSuchCommand name near) tree console

/-- Call the tool. -/
def call (p : Place) (words : List Text) (tree : Tree) (input : List InputLine) : Outcome :=
  let console : Console := { screen := p.screen, input }
  match Arguments.read [helpSwitch] false words with
  | .error fault => p.refuse none fault tree console
  | .ok a =>
    if a.has .help then p.showPage none tree console
    else
      match a.words with
      | [] => p.refuse none .missingCommand tree console
      | name :: rest =>
        match ToolCommand.all.find? fun c => c.name.toList = name with
        | some command => p.callCommand command rest tree console
        | none => p.strangeCommand name rest tree console

end Place

end Emend.Command
