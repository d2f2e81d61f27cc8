import Emend.Text.CodePoint
import Emend.Tree.Change

/-!
# Replacing a file in one step

New contents are written to a temporary file, which gets the permissions of what it is to replace
and is then moved there, so that nobody finds a file that is half written. If this is refused after
the temporary file was made, the temporary file is removed.

The temporary file lies in the directory that the path has when it is read from the top and every
pair of a name and two points is taken out of it. The file is put where the path leads name by name,
which is another directory if a link stands before two points. A null character in a path is refused
where the path is used, which may be only after the temporary file was made.
-/

namespace Emend

namespace Tree

/-- The tree without the entry at a location. -/
def erase (t : Tree) (location : Location) : Tree :=
  { t with entries := t.entries.filter fun item => item.1 ≠ location }

/-- The tree with other permissions for a file. -/
def setMode (t : Tree) (location : Location) (mode : Nat) : Tree :=
  match t.entryAt location with
  | some (.file bytes _) => t.put location (.file bytes mode)
  | _ => t

/-- The length of what a temporary file has in its name beside the name of the file that it is to
replace. -/
def temporaryLength : Nat := 14

/-- The name of a temporary file. The mark tells it from other files. -/
def temporaryName (name mark : Text) : Text := '.' :: name ++ '.' :: mark ++ ".tmp".toList

/-- The mark with a number: its digits, eight of them or more. -/
def mark (n : Nat) : Text := (Nat.toDigits 10 n).leftpad 8 '0'

/-- The marks that are tried in a tree: one more than there are entries, so that one of them is not
taken. -/
def marks (t : Tree) : List Text := (List.range (t.entries.length + 1)).map mark

/-- The names from the top to the directory of the temporary file for a path. -/
def hostNames (t : Tree) (path : Text) : List Text :=
  Path.collapse (Path.base t.here path ++ (Path.parts path).dropLast)

/-- The path of a name in that directory. -/
def hostPath (t : Tree) (path name : Text) : Text :=
  let root := if (Path.root path).isEmpty then ['/'] else Path.root path
  Path.join (root ++ Text.joinWith ['/'] (t.hostNames path)) name

/-- Make an empty temporary file in a directory, under the first mark that is not taken. -/
def makeTemporaryIn (t : Tree) (marks : List Text) (directory : Location) (name : Text) :
    Except FileFault (Location × Tree) :=
  match t.barrier directory .search with
  | some fault => .error fault
  | none =>
    if Path.maxName < Path.byteLength name + temporaryLength then .error .nameTooLong
    else
      match marks.find? fun mark => (t.entryAt (directory ++ [temporaryName name mark])).isNone with
      | none => .error .alreadyExists
      | some mark =>
        (t.add directory (temporaryName name mark) (.file [] privateMode)).map fun made =>
          (directory ++ [temporaryName name mark], made)

/-- Make an empty temporary file for a path. -/
def makeTemporary (t : Tree) (marks : List Text) (path : Text) :
    Except FileFault (Location × Tree) :=
  let name := (Path.parts path).getLast?.getD []
  if (Path.collapse (Path.parts path).dropLast ++ [name]).any Path.hasNull then .error .nullByte
  else if Path.maxPath < Path.byteLength (t.hostPath path name) + temporaryLength then
    .error .nameTooLong
  else do
    let directory ← t.directoryAt [] (t.hostNames path)
    t.makeTemporaryIn marks directory name

/-- Fill a new file, unless there are no bytes to fill it with. -/
def fill (t : Tree) (location : Location) (contents : Except FileFault (List UInt8)) :
    Except FileFault Tree :=
  contents.map fun bytes => t.put location (.file bytes privateMode)

/-- Give a file the permissions of what a path leads to, if it leads to something. -/
def copyMode (t : Tree) (path : Text) (location : Location) : Except FileFault Tree :=
  if Path.hasNull path then .ok t
  else do
    match ← t.probe (Path.normalize path) with
    | some entry => .ok (t.setMode location entry.mode)
    | none => .ok t

/-- Move a file to a name in a directory. A link of that name is replaced; a directory is not. -/
def moveInto (t : Tree) (location directory : Location) (name : Text) : Except FileFault Tree :=
  match t.barrier directory .search with
  | some fault => .error fault
  | none =>
    if name = [] || name = ['.', '.'] then .error .busy
    else
      match t.entryAt location, t.barrier directory .write, t.entryAt (directory ++ [name]) with
      | none, _, _ => .error .notFound
      | _, some fault, _ => .error fault
      | _, _, some (.directory _) => .error .isDirectory
      | some entry, _, _ => .ok ((t.erase location).put (directory ++ [name]) entry)

/-- Move a file to the place that a path names: its last name in the directory to which the others
lead. -/
def moveTo (t : Tree) (location : Location) (path : Text) : Except FileFault Tree :=
  if Path.hasNull path then .error .nullByte
  else do
    let names := Path.parts path
    let directory ← t.directoryAt (Path.base t.here path) names.dropLast
    t.moveInto location directory (names.getLast?.getD [])

/-- Put a file in the place of what a path names, by way of a temporary file with one of the given
marks. -/
def replaceWith (t : Tree) (marks : List Text) (path : Text)
    (contents : Except FileFault (List UInt8)) : Changed :=
  match t.makeTemporary marks path with
  | .error fault => (t, some fault)
  | .ok (place, made) =>
    let moved := andThen (made.changed (made.fill place contents)) fun filled =>
      andThen (filled.changed (filled.copyMode path place)) fun granted =>
        granted.changed (granted.moveTo place path)
    match moved with
    | (u, none) => (u, none)
    | (left, some fault) => (left.erase place, some fault)

/-- The tree after a file has been put in the place of what a path names. -/
def replace (t : Tree) (path : Text) (bytes : List UInt8) : Except FileFault Tree :=
  match t.replaceWith t.marks path (.ok bytes) with
  | (u, none) => .ok u
  | (_, some fault) => .error fault

end Tree

end Emend
