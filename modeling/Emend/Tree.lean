import Emend.Fault
import Emend.Path

/-!
# Trees of files

A tree holds files with their bytes, directories, and links. Files and directories have permissions.
Everything is listed with its location, which is the list of names that leads to it from the top;
the directory at the top has the empty location and is not listed.

A path is resolved name by name, an absolute one from the top and any other one from the working
directory. Two points lead to the directory above, and at the top they lead nowhere else. A link on
the way is replaced by its target, which is read from the directory that holds the link unless it is
absolute, and the number of links is bounded. A name that is too long is refused once its directory
is reached, and a path that is too long at once.

Whoever works on a tree owns what it holds, so the permissions of the owner are those that count.
They do not bind a privileged user.
-/

namespace Emend

/-- The names that lead to an entry. -/
abbrev Location := List Text

/-- What lies at a location. -/
inductive Entry where
  | file (bytes : List UInt8) (mode : Nat)
  | directory (mode : Nat)
  | link (target : Text)
  deriving DecidableEq, Repr

/-- The permissions of an entry; a link has them all. -/
def Entry.mode : Entry → Nat
  | .file _ mode => mode
  | .directory mode => mode
  | .link _ => 0o777

/-- Whether an entry is a directory. -/
def Entry.isDirectory : Entry → Bool
  | .directory _ => true
  | _ => false

/-- What permissions are asked for. To search a directory is to look up a name in it. -/
inductive Access where
  | read
  | write
  | search
  deriving DecidableEq, Repr

/-- The place of the bit that grants it to the owner. -/
def Access.bit : Access → Nat
  | read => 8
  | write => 7
  | search => 6

/-- The permissions of a new directory. -/
def Tree.directoryMode : Nat := 0o755

/-- All entries below one directory. -/
structure Tree where
  entries : List (Location × Entry) := []
  /-- The permissions of the directory at the top. -/
  top : Nat := Tree.directoryMode
  /-- The working directory. -/
  here : Location := []
  /-- Whether permissions do not bind. -/
  privileged : Bool := false
  deriving DecidableEq, Repr

/-- What a path leads to: an entry, or a name that its directory does not have. -/
inductive Resolved where
  | found (location : Location) (entry : Entry)
  | missing (directory : Location) (name : Text)
  deriving DecidableEq, Repr

namespace Tree

/-- The permissions of a new file. -/
def fileMode : Nat := 0o644

/-- The permissions of a new file that takes the place of nothing. -/
def privateMode : Nat := 0o600

/-- Whether permissions grant an access. -/
def grants (t : Tree) (mode : Nat) (access : Access) : Bool :=
  t.privileged || mode.testBit access.bit

/-- The entry at a location. -/
def entryAt (t : Tree) (location : Location) : Option Entry :=
  match location with
  | [] => some (.directory t.top)
  | _ => t.entries.lookup location

/-- Why a directory is not accessed, if it is not. -/
def barrier (t : Tree) (directory : Location) (access : Access) : Option FileFault :=
  match t.entryAt directory with
  | some (.directory mode) => if t.grants mode access then none else some .denied
  | some _ => some .notDirectory
  | none => some .notFound

/-- The tree with an entry at a location, in the place of the one it had. -/
def put (t : Tree) (location : Location) (entry : Entry) : Tree :=
  if (t.entries.lookup location).isSome then
    { t with
      entries := t.entries.map fun (l, e) => if l = location then (l, entry) else (l, e) }
  else { t with entries := t.entries ++ [(location, entry)] }

/-- The tree without a location and all that lies below it. -/
def remove (t : Tree) (location : Location) : Tree :=
  { t with entries := t.entries.filter fun (l, _) => !location.isPrefixOf l }

/-- The tree without what lies below a location. -/
def clear (t : Tree) (location : Location) : Tree :=
  { t with entries := t.entries.filter fun (l, _) => l = location || !location.isPrefixOf l }

/-- The names in a directory, with their entries. -/
def children (t : Tree) (directory : Location) : List (Text × Entry) :=
  t.entries.filterMap fun (l, e) =>
    match l.getLast? with
    | some name => if l.dropLast = directory then some (name, e) else none
    | none => none

/-- What names lead to from a directory. `onLink` goes on after a link, and `follow` says whether a
link at the very end is followed. Every name is looked up in its directory, a single point too; only
the empty one is not. -/
def resolveFrom (t : Tree) (follow : Bool)
    (onLink : Location → List Text → Except FileFault Resolved) :
    Location → List Text → Except FileFault Resolved
  | directory, [] =>
    match t.entryAt directory with
    | some (.directory mode) => .ok (.found directory (.directory mode))
    | some _ => .error .notDirectory
    | none => .error .notFound
  | directory, name :: rest =>
    if name = [] then resolveFrom t follow onLink directory rest
    else
      match t.barrier directory .search with
      | some fault => .error fault
      | none =>
        if name = ['.'] then resolveFrom t follow onLink directory rest
        else if name = ['.', '.'] then resolveFrom t follow onLink directory.dropLast rest
        else if Path.isLongName name then .error .nameTooLong
        else
          match t.entryAt (directory ++ [name]) with
          | none => if rest.isEmpty then .ok (.missing directory name) else .error .notFound
          | some (.directory _) => resolveFrom t follow onLink (directory ++ [name]) rest
          | some (.file bytes mode) =>
            if rest.isEmpty then .ok (.found (directory ++ [name]) (.file bytes mode))
            else .error .notDirectory
          | some (.link target) =>
            if rest.isEmpty && !follow then .ok (.found (directory ++ [name]) (.link target))
            else onLink (Path.base directory target) (target.splitAt '/' ++ rest)

/-- What names lead to from a directory, over at most `links` links. -/
def resolveNames (t : Tree) (follow : Bool) :
    Nat → Location → List Text → Except FileFault Resolved
  | 0, _, _ => .error .tooManyLinks
  | links + 1, directory, names =>
    resolveFrom t follow (resolveNames t follow links) directory names

/-- The most links on the way to an entry, and one more. -/
def linkLimit : Nat := 41

/-- What a path leads to. -/
def resolve (t : Tree) (follow : Bool) (path : Text) : Except FileFault Resolved :=
  if Path.isLong path then .error .nameTooLong
  else if path = [] then .error .notFound
  else resolveNames t follow linkLimit (Path.base t.here path) (path.splitAt '/')

/-- The directory that names lead to from a directory, links followed. -/
def directoryAt (t : Tree) (start : Location) (names : List Text) :
    Except FileFault Location := do
  match ← resolveNames t true linkLimit start names with
  | .found directory (.directory _) => .ok directory
  | .found .. => .error .notDirectory
  | .missing .. => .error .notFound

/-- The directory that holds the last name of a path, and that name; slashes after it do not
count. -/
def lastName (t : Tree) (path : Text) : Except FileFault (Location × Text) := do
  if Path.isLong path then .error .nameTooLong
  if path = [] then .error .notFound
  let names := Path.names path
  let directory ← t.directoryAt (Path.base t.here path) names.dropLast
  let name := names.getLast?.getD []
  if Path.isLongName name then .error .nameTooLong
  .ok (directory, name)

/-- The entry that a path leads to, links followed. -/
def lookup (t : Tree) (path : Text) : Option (Location × Entry) :=
  match t.resolve true path with
  | .ok (.found location entry) => some (location, entry)
  | _ => none

/-- The entry that a path leads to, if it leads to one. That a name is too long, or that a directory
may not be searched, is a fault. -/
def probe (t : Tree) (path : Text) : Except FileFault (Option Entry) :=
  match t.resolve true path with
  | .ok (.found _ entry) => .ok (some entry)
  | .error .nameTooLong => .error .nameTooLong
  | .error .denied => .error .denied
  | _ => .ok none

/-- Whether a path leads to a directory. -/
def isDirectory (t : Tree) (path : Text) : Bool :=
  match t.lookup path with
  | some (_, .directory _) => true
  | _ => false

/-- Whether a path leads to a file. -/
def isFile (t : Tree) (path : Text) : Bool :=
  match t.lookup path with
  | some (_, .file ..) => true
  | _ => false

/-- The bytes of the file that a path leads to. -/
def read (t : Tree) (path : Text) : Except FileFault (List UInt8) := do
  match ← t.resolve true path with
  | .found _ (.file bytes mode) => if t.grants mode .read then .ok bytes else .error .denied
  | .found _ entry => .error (if t.grants entry.mode .read then .isDirectory else .denied)
  | .missing .. => .error .notFound

/-- The tree with a new entry under a name in a directory. -/
def add (t : Tree) (directory : Location) (name : Text) (entry : Entry) : Except FileFault Tree :=
  match t.barrier directory .write with
  | some fault => .error fault
  | none => .ok (t.put (directory ++ [name]) entry)

/-- The tree after the file that a path leads to has got new bytes. A file that was there keeps its
permissions. -/
def write (t : Tree) (path : Text) (bytes : List UInt8) : Except FileFault Tree := do
  match ← t.resolve true path with
  | .found location (.file _ mode) =>
    if t.grants mode .write then .ok (t.put location (.file bytes mode)) else .error .denied
  | .found _ _ => .error .isDirectory
  | .missing directory name => t.add directory name (.file bytes fileMode)

end Tree

end Emend
