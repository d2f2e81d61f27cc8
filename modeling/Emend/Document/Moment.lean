import Emend.Value

/-!
# Reading moments

Days, times of day and moments, as documents of settings write them.
-/

namespace Emend.Document.Moment

/-- The number that the first `count` characters are, if they are digits. -/
def digits (count : Nat) (t : Text) : Option (Nat × Text) :=
  let taken := t.take count
  if taken.length = count && taken.all Text.isAsciiDigit then
    some (Text.number 10 taken, t.drop count)
  else none

/-- A number of two digits within bounds. -/
def two (least most : Nat) (t : Text) : Option (Nat × Text) := do
  let (n, rest) ← digits 2 t
  if least ≤ n && n ≤ most then some (n, rest) else none

/-- The rest after a given character. -/
def after (c : Char) : Text → Option Text
  | d :: rest => if d = c then some rest else none
  | [] => none

/-- The days of a month. -/
def daysIn (year month : Nat) : Nat :=
  if month = 2 then
    if year % 4 = 0 && (year % 100 ≠ 0 || year % 400 = 0) then 29 else 28
  else if month = 4 || month = 6 || month = 9 || month = 11 then 30
  else 31

/-- A fraction of a second in millionths; digits after the sixth are dropped. -/
def fraction (t : Text) : Nat × Text :=
  match t with
  | '.' :: rest =>
    let places := rest.takeWhile Text.isAsciiDigit
    if places.isEmpty then (0, t)
    else
      (Text.number 10 ((places ++ List.replicate 6 '0').take 6), rest.dropWhile Text.isAsciiDigit)
  | _ => (0, t)

/-- A time of day. -/
def clock (t : Text) : Option (Clock × Text) := do
  let (hour, t) ← two 0 23 t
  let t ← after ':' t
  let (minute, t) ← two 0 59 t
  let t ← after ':' t
  let (second, t) ← two 0 59 t
  let (micro, rest) := fraction t
  some ({ hour, minute, second, micro }, rest)

/-- An offset from universal time in minutes. -/
def offset (t : Text) : Option (Int × Text) :=
  match t with
  | [] => none
  | c :: rest =>
    if c = 'Z' || c = 'z' then some (0, rest)
    else if c = '+' || c = '-' then do
      let (hour, rest) ← two 0 23 rest
      let rest ← after ':' rest
      let (minute, rest) ← two 0 59 rest
      let size : Int := 60 * hour + minute
      some (if c = '-' then -size else size, rest)
    else none

/-- A date, and whether there is such a day. -/
def date (t : Text) : Option (Date × Bool × Text) := do
  let (year, t) ← digits 4 t
  let t ← after '-' t
  let (month, t) ← two 1 12 t
  let t ← after '-' t
  let (day, t) ← two 1 31 t
  some ({ year, month, day }, 1 ≤ year && day ≤ daysIn year month, t)

/-- A time after a date, with its offset. -/
def clockAfterDate (t : Text) : Option ((Clock × Option Int) × Text) :=
  match t with
  | [] => none
  | c :: rest =>
    if c = 'T' || c = 't' || c = ' ' then do
      let (clock, rest) ← clock rest
      match offset rest with
      | some (minutes, rest) => some ((clock, some minutes), rest)
      | none => some ((clock, none), rest)
    else none

/-- A date, a time, or both; nothing inside if there is no such day. -/
def read (t : Text) : Option (Option Value × Text) :=
  match date t with
  | some (date, exists?, rest) =>
    let (value, rest) :=
      match clockAfterDate rest with
      | some ((clock, offset), rest) => (Value.moment { date, clock, offset }, rest)
      | none => (Value.date date, rest)
    some (if exists? then some value else none, rest)
  | none => (clock t).map fun (clock, rest) => (some (.clock clock), rest)

end Emend.Document.Moment
