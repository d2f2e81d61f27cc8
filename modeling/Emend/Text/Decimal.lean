import Emend.Text.Class

/-!
# Decimal text of binary fractions

A finite binary fraction is `m · 2 ^ q`. Among the decimals that read back as it, the text shows one
with the fewest digits, and of those the nearest; of two equally near the one whose last digit is
even. The search works in exact integers: for one digit, two digits and so on it tries the two
decimals of that length around the value against the interval of reals that round to it, whose ends
belong to it when `m` is even.

The format is a separate decision: positional from one ten-thousandth up to but excluding ten to the
sixteenth, always with a fraction part, and with a signed exponent of at least two digits elsewhere.
-/

namespace Emend.Decimal

/-- A positive real between two bounds, all three over one denominator. -/
structure Interval where
  value : Nat
  low : Nat
  high : Nat
  denominator : Nat
  closed : Bool

/-- The reals that round to `m · 2 ^ q`; at a power of two the gap below is half the gap above. -/
def Interval.around (m : Nat) (q : Int) (power : Bool) : Interval :=
  let scale := q - 2
  let up := Nat.pow 2 scale.toNat
  let below := if power then 1 else 2
  { value := 4 * m * up
    low := (4 * m - below) * up
    high := (4 * m + 2) * up
    denominator := Nat.pow 2 (-scale).toNat
    closed := m % 2 = 0 }

/-- Whether `count · 10 ^ power` lies in the interval. -/
def Interval.holds (i : Interval) (count : Nat) (power : Int) : Bool :=
  let point := count * Nat.pow 10 power.toNat * i.denominator
  let low := i.low * Nat.pow 10 (-power).toNat
  let high := i.high * Nat.pow 10 (-power).toNat
  if i.closed then low ≤ point && point ≤ high else low < point && point < high

/-- Twice the distance from the value to `count · 10 ^ power`, over a common denominator. -/
def Interval.distance (i : Interval) (count : Nat) (power : Int) : Nat :=
  let point := count * Nat.pow 10 power.toNat * i.denominator
  let value := i.value * Nat.pow 10 (-power).toNat
  (point - value) + (value - point)

/-- How often ten divides into a number before it drops below ten. -/
def wholeLog (n : Nat) : Nat := (Nat.toDigits 10 n).length - 1

/-- The least shift by powers of ten, from `shift` on, that brings the fraction to one or above. -/
def fractionLog (numerator denominator : Nat) : Nat → Nat → Nat
  | 0, shift => shift
  | fuel + 1, shift =>
    if denominator ≤ numerator * Nat.pow 10 shift then shift
    else fractionLog numerator denominator fuel (shift + 1)

/-- The exponent of ten at or below the value. -/
def Interval.log (i : Interval) : Int :=
  if i.denominator ≤ i.value then (wholeLog (i.value / i.denominator) : Int)
  else -(fractionLog i.value i.denominator 400 1 : Int)

/-- The decimal with `length` digits in the interval that is nearest to the value, if there is one:
its digits as a number and the power of ten they count. A tie goes to the even number. -/
def Interval.withDigits (i : Interval) (length : Nat) : Option (Nat × Int) :=
  let power := i.log - (length : Int) + 1
  let count := i.value * Nat.pow 10 (-power).toNat / (i.denominator * Nat.pow 10 power.toNat)
  match i.holds count power, i.holds (count + 1) power with
  | true, true =>
    let above := i.distance (count + 1) power
    let below := i.distance count power
    if above < below || (above = below && count % 2 = 1) then some (count + 1, power)
    else some (count, power)
  | true, false => some (count, power)
  | false, true => some (count + 1, power)
  | false, false => none

/-- The first length from `length` on with a decimal in the interval. -/
def Interval.shortestFrom (i : Interval) : Nat → Nat → Nat × Int
  | 0, length => (i.withDigits length).getD (0, 0)
  | fuel + 1, length =>
    match i.withDigits length with
    | some decimal => decimal
    | none => i.shortestFrom fuel (length + 1)

/-- The decimal with the fewest digits that reads back as the value. Seventeen digits always do. -/
def Interval.shortest (i : Interval) : Nat × Int := i.shortestFrom 16 1

/-- The digits without their trailing zeros, last digit first. -/
def significant (digits : Text) : Text := (digits.reverse.dropWhile (· = '0')).reverse

/-- The text of the digits, the first of which counts `exponent` powers of ten. -/
def layout (digits : Text) (exponent : Int) : Text :=
  let count := digits.length
  if -4 ≤ exponent ∧ exponent < 16 then
    if exponent < 0 then '0' :: '.' :: List.replicate (-exponent - 1).toNat '0' ++ digits
    else
      let whole := exponent.toNat + 1
      if count ≤ whole then digits ++ List.replicate (whole - count) '0' ++ ['.', '0']
      else digits.take whole ++ '.' :: digits.drop whole
  else
    let power := Nat.toDigits 10 exponent.natAbs
    let power := if power.length < 2 then '0' :: power else power
    let sign := if exponent < 0 then '-' else '+'
    match digits with
    | [] => []
    | [d] => d :: 'e' :: sign :: power
    | d :: rest => d :: '.' :: rest ++ 'e' :: sign :: power

/-- The text of a positive binary fraction. -/
def positive (m : Nat) (q : Int) (power : Bool) : Text :=
  let (count, unit) := (Interval.around m q power).shortest
  let digits := Nat.toDigits 10 count
  layout (significant digits) (unit + (digits.length : Int) - 1)

/-- The text of a floating-point number. -/
def ofFloat (x : Float) : String :=
  let bits := x.toBits.toNat
  let sign := if bits / Nat.pow 2 63 % 2 = 1 then "-" else ""
  let exponent : Nat := bits / Nat.pow 2 52 % Nat.pow 2 11
  let fraction : Nat := bits % Nat.pow 2 52
  if exponent = 2047 then if fraction = 0 then sign ++ "inf" else "nan"
  else if exponent = 0 then
    if fraction = 0 then sign ++ "0.0"
    else sign ++ String.ofList (positive fraction (-1074) false)
  else
    sign ++ String.ofList
      (positive (fraction + Nat.pow 2 52) ((exponent : Int) - 1075) (fraction = 0 && 1 < exponent))

/-- The sign, the whole number `m` and the exponent `q` of the finite number `m · 2 ^ q`. -/
def parts (x : Float) : Bool × Nat × Int :=
  let bits := x.toBits.toNat
  let negative := bits / Nat.pow 2 63 % 2 = 1
  let exponent : Nat := bits / Nat.pow 2 52 % Nat.pow 2 11
  let fraction : Nat := bits % Nat.pow 2 52
  if exponent = 0 then (negative, fraction, -1074)
  else (negative, fraction + Nat.pow 2 52, (exponent : Int) - 1075)

/-- The floating-point number nearest to `count · 10 ^ exponent`. Exponents far outside the range
are decided by their sign, so that no huge power is formed. -/
def toFloat (count : Nat) (exponent : Int) : Float :=
  let size := (Nat.toDigits 10 count).length
  if count = 0 then 0.0
  else if 400 < exponent + size then 1.0 / 0.0
  else if exponent + size < -400 then 0.0
  else if exponent < 0 then Float.ofScientific count true exponent.natAbs
  else Float.ofScientific count false exponent.natAbs

end Emend.Decimal
