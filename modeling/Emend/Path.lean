import Emend.Text.Class

/-!
# Paths

A path is a text of components with slashes between them. Its normal form has no empty components
and no single points, keeps two points as they are, and begins with one slash, with exactly two, or
with none; the empty path is a single point.

A name and a path may not be too long; their lengths count the bytes of their UTF-8 form.
-/

namespace Emend.Path

/-- Whether a component says nothing: it is empty or a single point. -/
def isIdle (component : Text) : Bool := component = [] || component = ['.']

/-- The components that count. -/
def parts (path : Text) : List Text := (path.splitAt '/').filter fun c => !isIdle c

/-- The slashes that a normal form begins with: exactly two are kept, any other number is one. -/
def root : Text → Text
  | '/' :: '/' :: '/' :: _ => ['/']
  | '/' :: '/' :: _ => ['/', '/']
  | '/' :: _ => ['/']
  | _ => []

/-- The normal form of a path. -/
def normalize (path : Text) : Text :=
  match root path ++ Text.joinWith ['/'] (parts path) with
  | [] => ['.']
  | normal => normal

/-- The number of bytes of a text in UTF-8. -/
def byteLength (t : Text) : Nat := t.foldl (fun n c => n + c.utf8Size) 0

/-- The most bytes of a name. -/
def maxName : Nat := 255

/-- The most bytes of a path. -/
def maxPath : Nat := 4095

/-- Whether a name is too long. -/
def isLongName (name : Text) : Bool := maxName < byteLength name

/-- Whether a path is too long. -/
def isLong (path : Text) : Bool := maxPath < byteLength path

/-- Whether a text holds a null character, which no path can. -/
def hasNull (t : Text) : Bool := t.contains '\x00'

/-- A path up to its last slash, and what follows. The slashes at the end of the first part are left
out, unless it holds nothing else. -/
def split (path : Text) : Text × Text :=
  let tail := (path.reverse.takeWhile (· ≠ '/')).reverse
  let head := path.take (path.length - tail.length)
  let directory := Text.trimRight (· = '/') head
  (if directory.isEmpty then head else directory, tail)

/-- The components of a path without the slashes at its end. -/
def names (path : Text) : List Text := (Text.trimRight (· = '/') path).splitAt '/'

/-- Where a path is read from that is met in a directory: an absolute one from the top. -/
def base (directory : List Text) (path : Text) : List Text :=
  if path.head? = some '/' then [] else directory

/-- Names from the top with every pair of a name and two points taken out. At the top two points
say nothing. -/
def collapse (names : List Text) : List Text :=
  names.foldl (fun kept name => if name = ['.', '.'] then kept.dropLast else kept ++ [name]) []

/-- A name below a directory. -/
def join (directory name : Text) : Text :=
  if name.head? = some '/' then name
  else if directory = [] || directory.getLast? = some '/' then directory ++ name
  else directory ++ '/' :: name

end Emend.Path
