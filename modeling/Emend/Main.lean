import Emend.Command.Tool

/-!
# The program

The tool on the files below the working directory. The program reads them, lets the tool work on the
tree, and writes back what has changed. The tree also holds the file of the configuration in the
home directory. Permissions are left to the disk.

The tool takes all its input at once, so it is called anew with every line that is read: what it has
written before it asks for the next line is always the start of what it writes in the end.
-/

namespace Emend.Program

open Command

/-- The most directories within one another that are read. -/
def maxDepth : Nat := 64

/-- A location as a path on the disk. -/
def pathOf (location : Location) : String := String.ofList ('/' :: Text.joinWith ['/'] location)

/-- The bytes of a file in the tree. -/
def fileEntry (bytes : ByteArray) : Entry := .file bytes.toList Tree.fileMode

/-- A directory in the tree. -/
def directoryEntry : Entry := .directory Tree.directoryMode

/-- Add what lies below a directory to the entries of the tree, last entry first. -/
def snapshot : Nat → Location → List (Location × Entry) → IO (List (Location × Entry))
  | 0, _, found => pure found
  | depth + 1, location, found => do
    let top ← IO.currentDir
    let mut found := found
    for child in ← (top / pathOf location).readDir do
      let inner := location ++ [child.fileName.toList]
      try
        match (← child.path.metadata).type with
        | .dir => found ← snapshot depth inner ((inner, directoryEntry) :: found)
        | .file => found := (inner, fileEntry (← IO.FS.readBinFile child.path)) :: found
        | _ => pure ()
      catch _ => pure ()
    return found

/-- The directories on the way to a location, and that at the location. -/
def wayTo (location : Location) : List (Location × Entry) :=
  (List.range location.length).map fun n => (location.take (n + 1), directoryEntry)

/-- The home directory as it is named, or the working directory. -/
def homeName : IO Text := do return ((← IO.getEnv "HOME").getD ".").toList

/-- The tree with the working directory and the configuration of the user. -/
def readTree : IO Tree := do
  let here := Path.parts (← IO.currentDir).toString.toList
  let found := wayTo here ++ (← snapshot maxDepth here []).reverse
  let home ← homeName
  let base := if home.head? = some '/' then [] else here
  let homeLocation := base ++ Path.parts home
  let config := homeLocation ++ [Config.fileName]
  let settings ←
    try pure [(config, fileEntry (← IO.FS.readBinFile (pathOf config)))]
    catch _ => pure []
  let more := (wayTo homeLocation ++ settings).filter fun (l, _) => (found.lookup l).isNone
  return { entries := found ++ more, here, privileged := true }

/-- Write back the files that have changed. -/
def writeTree (before after : Tree) : IO Unit := do
  for (location, entry) in after.entries do
    if before.entryAt location ≠ some entry then
      match entry with
      | .file bytes _ => IO.FS.writeBinFile (pathOf location) bytes.toByteArray
      | _ => pure ()

/-- Call the tool, with another line of input whenever it asks for one that was not read yet. Gives
the outcome and how much of the output was written. -/
partial def converse (place : Place) (words : List Text) (tree : Tree) (lines : List InputLine)
    (shown : Nat) : IO (Outcome × Nat) := do
  let outcome := place.call words tree lines
  let asksOn := (place.call words tree (lines ++ [.interrupt])).console.input.isEmpty
  if asksOn then
    let output ← IO.getStdout
    output.putStr (String.ofList (outcome.console.output.drop shown))
    output.flush
    let shown := outcome.console.output.length
    let line ← (← IO.getStdin).getLine
    if line.isEmpty then return (outcome, shown)
    converse place words tree (lines ++ InputLine.ofText line.toList) shown
  else return (outcome, shown)

end Emend.Program

open Emend Emend.Program in
/-- Run the tool. -/
def main (arguments : List String) : IO UInt32 := do
  let tree ← readTree
  let screen : Screen :=
    { ansi := ← (← IO.getStdout).isTty, errorAnsi := ← (← IO.getStderr).isTty }
  let place : Command.Place := { program := "emend", home := ← homeName, screen }
  let (outcome, shown) ← converse place (arguments.map String.toList) tree [] 0
  IO.print (String.ofList (outcome.console.output.drop shown))
  IO.eprint (String.ofList outcome.console.errors)
  if let some fault := outcome.fault then
    IO.eprintln (fault.kind ++ ": " ++ fault.message)
  writeTree tree outcome.tree
  return outcome.code.toUInt32
