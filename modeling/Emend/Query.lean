import Emend.Glob
import Emend.Text.Quoted
import Emend.Tree
import Emend.Value

/-!
# Queries

A query names the files to work on: one file, or the files of a directory that pass a filter and
match no ignored glob. A glob is tried against the normal form of a path and against the same with a
slash in front.

Files directly in a directory are those that are files, through links or not as the query says; a
link that cannot be followed is refused, unless it leads nowhere. With all directories below,
everything that is no directory counts, links that lead nowhere included; links that lead to
directories are entered if the query says so. A directory that cannot be listed, because its path is
too long or because it may not be read or reached, is passed over.
-/

namespace Emend

/-- Which paths of a directory are wanted. -/
structure PathFilter where
  /-- Whether a filter lets a path through. -/
  accepts : Text → Bool

namespace PathFilter

/-- The filter that lets everything through. -/
def all : PathFilter := ⟨fun _ => true⟩

/-- The filter for paths with one of some endings. -/
def endings (suffixes : List Text) : PathFilter :=
  ⟨fun path => suffixes.any fun s => s.isSuffixOf path⟩

/-- The filter for file name extensions, which may lack their point. -/
def extensions (list : List Text) : PathFilter :=
  endings (list.map fun e => if e.head? = some '.' then e else '.' :: e)

/-- Python files. -/
def python : PathFilter := .extensions [".py".toList]

/-- JavaScript and TypeScript files. -/
def script : PathFilter :=
  .extensions [".js".toList, ".jsx".toList, ".ts".toList, ".tsx".toList]

end PathFilter

/-- The globs that are ignored unless others are given. -/
def defaultGlobs : List Text :=
  ["**/.git/**".toList, "**/__pycache__/**".toList, "**/node_modules/**".toList,
    "**/.venv/**".toList]

/-- The files to work on. -/
inductive Query where
  | single (path : Text)
  | inDirectory (path : Text) (filter : PathFilter) (recursive followLinks : Bool)
      (globs : List Value)

namespace Query

/-- Whether a path in normal form is ignored by globs; they are tried in order. -/
def ignoredBy (candidate : Text) : List Value → Except Fault Bool
  | [] => .ok false
  | .text glob :: rest =>
    if Glob.covers glob candidate || Glob.covers glob ('/' :: candidate) then .ok true
    else ignoredBy candidate rest
  | other :: _ => .error (.setting (.notGlob other.shortTypeName))

/-- Whether a path is ignored. -/
def isIgnored (globs : List Value) (path : Text) : Except Fault Bool :=
  ignoredBy (Path.normalize path) globs

/-- Whether a path is not ignored and passes the filter. -/
def isAccepted (filter : PathFilter) (globs : List Value) (path : Text) : Except Fault Bool :=
  (isIgnored globs path).map fun ignored => !ignored && filter.accepts path

/-- The paths that are not ignored and pass the filter. -/
def accepted (filter : PathFilter) (globs : List Value) (paths : List Text) :
    Except Fault (List Text) :=
  paths.filterM (isAccepted filter globs)

/-- Whether an entry at a path is a file, links followed or not. A link that leads nowhere is
none. -/
def isFileEntry (t : Tree) (followLinks : Bool) (path : Text) : Entry → Except Fault Bool
  | .file .. => .ok true
  | .directory _ => .ok false
  | .link _ =>
    if followLinks then
      match t.resolve true path with
      | .ok (.found _ (.file ..)) => .ok true
      | .ok _ => .ok false
      | .error .notFound => .ok false
      | .error fault => .error (.file fault)
    else .ok false

/-- Whether an entry at a path is a directory, links followed. A link that cannot be followed is
none. -/
def isDirectoryEntry (t : Tree) (path : Text) : Entry → Bool
  | .file .. => false
  | .directory _ => true
  | .link _ => t.isDirectory path

/-- The entries of a directory, with their paths. -/
def entriesIn (t : Tree) (path : Text) (directory : Location) : List (Text × Entry) :=
  (t.children directory).map fun (name, entry) => (Path.join path name, entry)

/-- The paths of the files directly in a directory with some permissions. -/
def flatPaths (t : Tree) (followLinks : Bool) (path : Text) (directory : Location) (mode : Nat) :
    Except Fault (List Text) :=
  if t.grants mode .read then do
    let files ← (entriesIn t path directory).filterM fun (path, entry) =>
      isFileEntry t followLinks path entry
    .ok (files.map Prod.fst)
  else .error (.file .denied)

/-- The paths of everything below a directory that is no directory; `depth` bounds the way down. -/
def deepPaths (t : Tree) (followLinks : Bool) : Nat → Text → List Text
  | 0, _ => []
  | depth + 1, path =>
    match t.lookup path with
    | some (directory, .directory mode) =>
      if t.grants mode .read then
        (entriesIn t path directory).flatMap fun (path, entry) =>
          if isDirectoryEntry t path entry then
            if followLinks || entry.isDirectory then deepPaths t followLinks depth path else []
          else [path]
      else []
    | _ => []

/-- The path that a query starts from. -/
def target : Query → Text
  | single path => path
  | inDirectory path .. => path

/-- Whether the start of a query is there. -/
def targetExists (t : Tree) : Query → Bool
  | single path => t.isFile path
  | inDirectory path .. => t.isDirectory path

/-- The paths of a query in the order in which the tree lists them. On the way down each directory
adds to the path, so the most bytes of a path bound it. -/
def paths (t : Tree) : Query → Except Fault (List Text)
  | single path => .ok (if t.isFile path then [path] else [])
  | inDirectory path filter true followLinks globs =>
    accepted filter globs (deepPaths t followLinks Path.maxPath path)
  | inDirectory path filter false followLinks globs =>
    match t.resolve true path with
    | .error fault => .error (.file fault)
    | .ok (.missing ..) => .error (.file .notFound)
    | .ok (.found location (.directory mode)) =>
      (flatPaths t followLinks path location mode).bind (accepted filter globs)
    | .ok (.found ..) => .error (.file .notDirectory)

/-- The paths of a query, sorted. -/
def sortedPaths (t : Tree) (q : Query) : Except Fault (List Text) :=
  (q.paths t).map fun paths => paths.mergeSort Text.precedes

/-- How a query describes itself. -/
def describe (q : Query) : String :=
  let kind := match q with
    | single _ => "single"
    | inDirectory .. => "dir"
  "FileQuery." ++ kind ++ "(" ++ String.ofList q.target.quoted ++ ")"

/-- The globs that a query ignores. -/
def globs : Query → List Value
  | single _ => []
  | inDirectory _ _ _ _ globs => globs

end Query

end Emend
