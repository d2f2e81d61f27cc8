import Emend.Text.Class

/-!
# Moments

Days, times of day, and moments, which are a day and a time with or without an offset from universal
time. A moment has two texts: the one by which it is written and read, and the one by which a value
that holds it shows it, which names what it is built from.

In the written form a fraction of a second has six places and is left out if it is zero, and an
offset is given in hours and minutes. In the shown form seconds and fractions that are zero are left
out, and an offset before universal time is a day back and some seconds forth.
-/

namespace Emend

/-- A day. -/
structure Date where
  year : Nat
  month : Nat
  day : Nat
  deriving DecidableEq, Repr

/-- A time of day, with millionths of a second. -/
structure Clock where
  hour : Nat
  minute : Nat
  second : Nat
  micro : Nat
  deriving DecidableEq, Repr

/-- A day and a time, with an offset from universal time in minutes if it is known. -/
structure Moment where
  date : Date
  clock : Clock
  offset : Option Int
  deriving DecidableEq, Repr

namespace Moment

/-- A number in decimal with at least so many digits. -/
def padded (width n : Nat) : Text :=
  let written := (Text.ofNat n).toList
  List.replicate (width - written.length) '0' ++ written

/-- Numbers with commas between them. -/
def numbers (list : List Nat) : Text :=
  Text.joinWith ", ".toList (list.map fun n => (Text.ofNat n).toList)

/-- An offset as hours and minutes. -/
def writtenOffset (minutes : Int) : Text :=
  let size := minutes.natAbs
  (if minutes < 0 then '-' else '+') :: padded 2 (size / 60) ++ ':' :: padded 2 (size % 60)

/-- The minutes of a day. -/
def dayMinutes : Int := 1440

/-- An offset by what it is built from. -/
def shownOffset (minutes : Int) : Text :=
  let seconds (n : Int) : Text := "seconds=".toList ++ (Text.ofInt (60 * n)).toList
  if minutes = 0 then "datetime.timezone.utc".toList
  else
    let span := if minutes < 0 then "days=-1, ".toList ++ seconds (minutes + dayMinutes)
      else seconds minutes
    "datetime.timezone(datetime.timedelta(".toList ++ span ++ "))".toList

end Moment

namespace Date

/-- The written form of a day. -/
def written (d : Date) : Text :=
  Moment.padded 4 d.year ++ '-' :: Moment.padded 2 d.month ++ '-' :: Moment.padded 2 d.day

/-- The numbers that a day is built from. -/
def parts (d : Date) : List Nat := [d.year, d.month, d.day]

/-- A day by what it is built from. -/
def shown (d : Date) : Text := "datetime.date(".toList ++ Moment.numbers d.parts ++ [')']

end Date

namespace Clock

/-- The written form of a time of day. -/
def written (c : Clock) : Text :=
  Moment.padded 2 c.hour ++ ':' :: Moment.padded 2 c.minute ++ ':' :: Moment.padded 2 c.second ++
    if c.micro = 0 then [] else '.' :: Moment.padded 6 c.micro

/-- The numbers that a time of day is built from. -/
def parts (c : Clock) : List Nat :=
  [c.hour, c.minute] ++
    if c.micro = 0 then if c.second = 0 then [] else [c.second] else [c.second, c.micro]

/-- A time of day by what it is built from. -/
def shown (c : Clock) : Text := "datetime.time(".toList ++ Moment.numbers c.parts ++ [')']

end Clock

namespace Moment

/-- The written form of a moment, with a character between its day and its time. -/
def written (between : Char) (m : Moment) : Text :=
  m.date.written ++ between :: m.clock.written ++ (m.offset.map writtenOffset).getD []

/-- A moment by what it is built from. -/
def shown (m : Moment) : Text :=
  let zone : Text :=
    match m.offset with
    | some minutes => ", tzinfo=".toList ++ shownOffset minutes
    | none => []
  "datetime.datetime(".toList ++ numbers (m.date.parts ++ m.clock.parts) ++ zone ++ [')']

end Moment

end Emend
