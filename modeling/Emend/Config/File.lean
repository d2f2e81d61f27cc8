import Emend.Config
import Emend.Document.Writer
import Emend.Log
import Emend.Path
import Emend.Tree.Change

/-!
# The file of the configuration

Reading the configuration from a file and writing it to one. A file that is not there gives the
default settings. So does one that cannot be read or is no document, with a warning. A path with a
name that is too long or through a directory that may not be searched, bytes that are no text,
numbers with too many digits, and tables that are no tables, are faults.
-/

namespace Emend.Config

/-- The name of the file in the home directory. -/
def fileName : Text := ".codemod.toml".toList

/-- The path of the file in a home directory. -/
def pathIn (home : Text) : Text := Path.normalize (Path.join home fileName)

/-- The warning for a file that is not read. -/
def unread (path reason : Text) : Record :=
  { level := .warning
    logger := logFamily
    message := "Ignoring unreadable config ".toList ++ path ++ ": ".toList ++ reason }

/-- The settings in a file, and a warning if the file was not read. -/
def load (tree : Tree) (path : Text) : Except Fault (Config × Option Record) :=
  let path := Path.normalize path
  match tree.probe path with
  | .error fault => .error (.file fault)
  | .ok none => .ok (default, none)
  | .ok (some _) =>
    match tree.read path with
    | .error fault =>
      .ok (default, some (unread path (fault.message.toList ++ ": ".toList ++ path.quoted)))
    | .ok bytes =>
      match Text.decode bytes with
      | .error fault => .error (.undecodable fault)
      | .ok text =>
        match Document.read text with
        | .error .malformed => .ok (default, some (unread path "<toml message>".toList))
        | .error (.tooManyDigits count) => .error (.tooManyDigits count)
        | .ok document => (ofDocument document).map fun config => (config, none)

/-- The document of some settings. -/
def document (c : Config) : Except Fault Document.Entries := do
  let globs ← items c.ignoredGlobs
  .ok [
    ("prompt".toList, .table [
      ("default_yes".toList, c.defaultYes),
      ("clear_screen".toList, c.clearScreen)]),
    ("diff".toList, .table [
      ("context_lines".toList, c.contextLines),
      ("min_lines".toList, c.minLines),
      ("fallback_lines".toList, c.fallbackLines),
      ("reserved_lines".toList, c.reservedLines)]),
    ("files".toList, .table [
      ("follow_links".toList, c.followLinks),
      ("ignored_globs".toList, .array globs)])]

/-- The directory of a path. -/
def directoryOf (path : Text) : Text :=
  Path.normalize (Path.root path ++ Text.joinWith ['/'] (Path.parts path).dropLast)

/-- Write settings to a file; the directories on the way to it are made. The file is emptied before
the settings are put into words. A setting that cannot be written leaves it with those before. -/
def save (c : Config) (tree : Tree) (path : Text) : Tree × Option Fault :=
  let path := Path.normalize path
  match tree.makeDirectories (directoryOf path) with
  | (made, some fault) => (made, some (.file fault))
  | (made, none) =>
    match c.document with
    | .error fault => (made, some fault)
    | .ok document =>
      match made.write path [] with
      | .error fault => (made, some (.file fault))
      | .ok emptied =>
        let output := Document.write document
        match emptied.write path (Text.encode output.text) with
        | .error fault => (emptied, some (.file fault))
        | .ok filled => (filled, output.fault)

end Emend.Config
