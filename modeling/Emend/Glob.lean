import Emend.Text.Class

/-!
# Globs

A glob matches whole texts: a star stands for any characters, slashes and newlines included, a
question mark for one, brackets for one of a set, and every other character for itself. An opening
bracket without a closing one stands for itself.

The set between brackets is written as characters and ranges. A hyphen makes a range of the
characters around it, unless it is the first or last of the set or follows right after a range. A
range whose ends are in the wrong order is dropped together with its ends. A set that is left empty
matches nothing, and its negation any character.
-/

namespace Emend

/-- One piece of a glob. -/
inductive GlobPiece where
  | star
  | any
  | char (c : Char)
  | oneOf (ranges : List (Char × Char)) (negated : Bool)
  deriving DecidableEq, Repr

namespace Glob

/-- The parts of a set around the hyphens that make ranges. A part that follows a hyphen has at
least two characters before the next such hyphen; `width` counts the characters still to pass, and
`part` holds those passed, last first. -/
def chunksFrom : Nat → Text → Text → List Text
  | _, part, [] => [part.reverse]
  | 0, part, '-' :: rest => part.reverse :: chunksFrom 2 [] rest
  | width, part, c :: rest => chunksFrom (width - 1) (c :: part) rest

/-- The parts of a set around its range hyphens; a hyphen at the very end belongs to the part before
it. -/
def chunks (set : Text) : List Text :=
  let found := chunksFrom 1 [] set
  match found.reverse with
  | [] :: last :: before => ((last ++ ['-']) :: before).reverse
  | _ => found

/-- Drops ranges whose ends are in the wrong order, from the last to the first. -/
def ordered : List Text → List Text
  | [] => []
  | part :: rest =>
    match part.getLast?, ordered rest with
    | some low, (high :: tail) :: more =>
      if high < low then (part.dropLast ++ tail) :: more else part :: (high :: tail) :: more
    | _, rest => part :: rest

/-- The ranges of ordered parts; `low` is the end of the part before. -/
def rangesAfter : Option Char → List Text → List (Char × Char)
  | none, [] => []
  | some low, [] => [(low, low)]
  | low, part :: rest =>
    let (first, part) : List (Char × Char) × Text :=
      match low, part with
      | some low, high :: part => ([(low, high)], part)
      | some low, [] => ([(low, low)], [])
      | none, part => ([], part)
    match rest with
    | [] => first ++ part.map fun c => (c, c)
    | _ => first ++ part.dropLast.map (fun c => (c, c)) ++ rangesAfter part.getLast? rest

/-- The set of ordered parts. Where dropped ranges bring an exclamation mark to the front it negates
the set after all, and a hyphen right after it stands for itself. -/
def setOf (negated : Bool) (parts : List Text) : GlobPiece :=
  match negated, parts with
  | false, ['!'] :: next :: more => .oneOf (rangesAfter none (('-' :: next) :: more)) true
  | false, ('!' :: part) :: more => .oneOf (rangesAfter none (part :: more)) true
  | negated, parts => .oneOf (rangesAfter none parts) negated

/-- The text up to a closing bracket, which may not be the first character, and what follows. -/
def untilBracket (t : Text) : Option (Text × Text) :=
  match t with
  | [] => none
  | c :: rest =>
    match rest.dropWhile (· ≠ ']') with
    | [] => none
    | _ :: after => some (c :: rest.takeWhile (· ≠ ']'), after)

/-- The set after an opening bracket, and what follows its closing bracket. -/
def bracket (t : Text) : Option (GlobPiece × Text) :=
  let (negated, body) := match t with
    | '!' :: rest => (true, rest)
    | _ => (false, t)
  (untilBracket body).map fun (set, after) => (setOf negated (ordered (chunks set)), after)

/-- The pieces of a glob; the count bounds its characters. -/
def piecesFrom : Nat → Text → List GlobPiece
  | 0, _ => []
  | _, [] => []
  | count + 1, '*' :: rest => .star :: piecesFrom count rest
  | count + 1, '?' :: rest => .any :: piecesFrom count rest
  | count + 1, '[' :: rest =>
    match bracket rest with
    | some (piece, after) => piece :: piecesFrom count after
    | none => .char '[' :: piecesFrom count rest
  | count + 1, c :: rest => .char c :: piecesFrom count rest

/-- The pieces of a glob. -/
def pieces (glob : Text) : List GlobPiece := piecesFrom glob.length glob

/-- Whether a test holds of some end of a text. -/
def someEnd (test : Text → Bool) : Text → Bool
  | [] => test []
  | c :: rest => test (c :: rest) || someEnd test rest

/-- Whether a character is what a piece other than a star stands for. -/
def accepts (c : Char) : GlobPiece → Bool
  | .star => false
  | .any => true
  | .char d => c = d
  | .oneOf ranges negated => (ranges.any fun (low, high) => low ≤ c && c ≤ high) != negated

/-- Whether a whole text is what the pieces stand for. -/
def fits : List GlobPiece → Text → Bool
  | [], t => t.isEmpty
  | .star :: rest, t => someEnd (fits rest) t
  | _ :: _, [] => false
  | piece :: rest, c :: t => accepts c piece && fits rest t

/-- The ends of a text, from the whole text to the empty one. -/
def ends : Text → List Text
  | [] => [[]]
  | c :: rest => (c :: rest) :: ends rest

/-- Which ends of a text a star and some pieces stand for, given which of them the pieces stand
for. -/
def starRow : List Bool → List Bool
  | [] => []
  | b :: rest =>
    let later := starRow rest
    (b || later.headD false) :: later

/-- Which ends of a text the pieces stand for, from the whole text to the empty one. Every piece is
compared with every character once, so stars need no search. -/
def row : List GlobPiece → Text → List Bool
  | [], t => t.map (fun _ => false) ++ [true]
  | .star :: rest, t => starRow (row rest t)
  | piece :: rest, t =>
    List.zipWith (fun c fit => accepts c piece && fit) t (row rest t).tail ++ [false]

/-- Whether a glob matches a text. -/
def covers (glob t : Text) : Bool := (row (pieces glob) t).headD false

theorem head_map_ends (test : Text → Bool) (t : Text) :
    ((ends t).map test).headD false = test t := by
  cases t <;> rfl

theorem starRow_map_ends (test : Text → Bool) (t : Text) :
    starRow ((ends t).map test) = (ends t).map (someEnd test) := by
  induction t with
  | nil => simp [ends, starRow, someEnd]
  | cons c rest ih => simp only [ends, List.map_cons, starRow, ih, head_map_ends, someEnd]

theorem map_ends_nil (t : Text) :
    t.map (fun _ => false) ++ [true] = (ends t).map (fits []) := by
  induction t with
  | nil => rfl
  | cons c rest ih => simpa [ends, fits] using ih

theorem zipWith_map_ends (piece : GlobPiece) (test : Text → Bool) (t : Text) :
    List.zipWith (fun c fit => accepts c piece && fit) t ((ends t).map test).tail ++ [false] =
      (ends t).map fun
        | [] => false
        | c :: rest => accepts c piece && test rest := by
  induction t with
  | nil => rfl
  | cons c rest ih =>
    cases rest with
    | nil => rfl
    | cons d more => simpa [ends] using ih

/-- A row tells of every end whether the pieces stand for it. -/
theorem row_eq_map_fits (pieces : List GlobPiece) (t : Text) :
    row pieces t = (ends t).map (fits pieces) := by
  induction pieces with
  | nil => exact map_ends_nil t
  | cons piece rest ih =>
    cases piece with
    | star =>
      simp only [row, ih, starRow_map_ends]
      congr 1
    | any | char _ | oneOf _ _ =>
      simp only [row, ih, zipWith_map_ends]
      congr 1
      funext u
      cases u <;> rfl

/-- A glob matches the texts that its pieces stand for. -/
theorem covers_eq_fits (glob t : Text) : covers glob t = fits (pieces glob) t := by
  rw [covers, row_eq_map_fits, head_map_ends]

end Glob

end Emend
