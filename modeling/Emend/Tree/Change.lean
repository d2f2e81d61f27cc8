import Emend.Tree
import Emend.Text.Utf8

/-!
# Changes of a tree

Making and removing directories and files by their paths. An operation of several steps that is
refused on the way leaves what it has done until then, so it gives back the tree with the refusal.

What a script does to a tree is not held to permissions.
-/

namespace Emend

namespace Tree

/-- The tree after the directory of a path has been made, whose own directory must exist. -/
def makeDirectory (t : Tree) (path : Text) : Except FileFault Tree := do
  match ← t.resolve false path with
  | .found .. => .error .alreadyExists
  | .missing directory name => t.add directory name (.directory directoryMode)

/-- The outcome of an operation that may be refused after it has changed something. -/
abbrev Changed := Tree × Option FileFault

/-- The outcome of a step that changes nothing if it is refused. -/
def changed (t : Tree) : Except FileFault Tree → Changed
  | .ok t => (t, none)
  | .error fault => (t, some fault)

/-- Go on with an outcome unless it was refused. -/
def andThen : Changed → (Tree → Changed) → Changed
  | (t, none), next => next t
  | refused, _ => refused

/-- The outcome for a directory that could not be made: one that is there will do. -/
def orFound (t : Tree) (path : Text) (fault : FileFault) : Changed :=
  match t.probe path with
  | .error cause => (t, some cause)
  | .ok (some (.directory _)) => (t, none)
  | .ok _ => (t, some fault)

/-- Make a directory whose own directory must exist, or find it. -/
def makeOrFind (t : Tree) (path : Text) : Changed :=
  match t.makeDirectory path with
  | .ok t => (t, none)
  | .error fault => t.orFound path fault

/-- Make a directory, which is given by its names with the last one first. Only if its own directory
is missing that is made before. -/
def makeDirectoriesTo (t : Tree) (root : Text) : List Text → Changed
  | [] => (t, none)
  | name :: outer =>
    let path := root ++ Text.joinWith ['/'] (outer.reverse ++ [name])
    match t.makeDirectory path with
    | .ok t => (t, none)
    | .error .notFound => andThen (makeDirectoriesTo t root outer) fun t => t.makeOrFind path
    | .error fault => t.orFound path fault

/-- Make the directory of a path and all directories on the way to it. -/
def makeDirectories (t : Tree) (path : Text) : Changed :=
  makeDirectoriesTo t (Path.root path) (Path.parts path).reverse

/-- Make a directory, or be content with one that is there. -/
def ensureLast (t : Tree) (path : Text) : Changed :=
  if t.isDirectory path then (t, none) else t.changed (t.makeDirectory path)

/-- Make the directory of a path and before it the directory that it lies in, if that does not
exist; the count bounds the directories. That something else stands in the place of an outer
directory is noticed only when the inner one is made. -/
def ensureDirectory : Nat → Tree → Text → Changed
  | 0, t, _ => (t, none)
  | count + 1, t, path =>
    let (outer, name) :=
      match Path.split path with
      | (outer, []) => Path.split outer
      | parts => parts
    if !outer.isEmpty && !name.isEmpty && (t.lookup outer).isNone then
      match ensureDirectory count t outer with
      | (t, some .alreadyExists) | (t, none) =>
        if name = ['.'] then (t, none) else ensureLast t path
      | refused => refused
    else ensureLast t path

/-- The tree after a file has got new bytes and the permissions of a new file, with all directories
on the way to it. -/
def writeAnew (t : Tree) (path : Text) (bytes : List UInt8) : Changed :=
  let directory := (Path.split path).1
  let way := if directory.isEmpty then (t, none) else ensureDirectory (path.length + 1) t directory
  andThen way fun t =>
    t.changed <| do
      match ← t.resolve true path with
      | .found location (.file ..) => .ok (t.put location (.file bytes fileMode))
      | .found .. => .error .isDirectory
      | .missing directory name => .ok (t.put (directory ++ [name]) (.file bytes fileMode))

/-- The tree after the file of a path has been removed. A link is removed itself; slashes after its
name, or after that of a file, are refused. -/
def removeFile (t : Tree) (path : Text) : Except FileFault Tree := do
  let (directory, name) ← t.lastName path
  if name = ['.'] || name = ['.', '.'] then .error .isDirectory
  match t.entryAt (directory ++ [name]) with
  | none => .error .notFound
  | some (.directory _) => .error .isDirectory
  | some _ =>
    if path.getLast? = some '/' then .error .notDirectory
    else .ok (t.remove (directory ++ [name]))

/-- The tree after the empty directory of a path has been removed. A single point as its last name
is refused. -/
def removeEmpty (t : Tree) (path : Text) : Except FileFault Tree := do
  let (directory, name) ← t.lastName path
  if name = ['.'] then .error .invalidArgument
  match t.entryAt (directory ++ [name]) with
  | none => .error .notFound
  | some (.directory _) => .ok (t.remove (directory ++ [name]))
  | some _ => .error .notDirectory

/-- The tree after the directory of a path has been removed: first what it holds, then the directory
itself. -/
def removeDirectory (t : Tree) (path : Text) : Changed :=
  match t.resolve false path with
  | .error fault => (t, some fault)
  | .ok (.missing ..) => (t, some .notFound)
  | .ok (.found _ (.link _)) => (t, some .isLink)
  | .ok (.found _ (.file ..)) => (t, some .notDirectory)
  | .ok (.found location (.directory _)) =>
    let t := t.clear location
    t.changed (t.removeEmpty path)

end Tree

/-- Something done to a tree of files. -/
inductive TreeAction where
  /-- Remove a directory with all that it holds. -/
  | removeDirectory (path : Text)
  /-- Put a directory with one empty file in the place of a file. -/
  | toDirectory (path : Text)
  /-- Give a file new contents. -/
  | write (path : Text) (contents : Text)
  deriving DecidableEq, Repr

namespace TreeAction

/-- The name of the file in a directory that takes the place of a file. -/
def keepName : Text := "keep".toList

/-- The tree after an action, as far as permissions allow it. -/
def run (t : Tree) : TreeAction → Tree.Changed
  | removeDirectory path => t.removeDirectory path
  | toDirectory path =>
    Tree.andThen (t.changed (t.removeFile path)) fun t =>
      Tree.andThen (t.changed (t.makeDirectory path)) fun t =>
        t.writeAnew (Path.join path keepName) []
  | write path contents => t.writeAnew path (Text.encode contents)

/-- The tree after an action. -/
def perform (t : Tree) (action : TreeAction) : Tree.Changed :=
  let (u, fault) := action.run { t with privileged := true }
  ({ u with privileged := t.privileged }, fault)

end TreeAction

end Emend
