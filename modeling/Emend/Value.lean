import Emend.Fault
import Emend.Moment
import Emend.Text.Decimal

/-!
# Values

The values that a document of settings can hold. Settings are not checked when they are read, so a
value of any type can stand where a number or a flag is expected; what happens then is decided where
the setting is used. Tables keep the order of their keys.
-/

namespace Emend

/-- A value of a document. -/
inductive Value where
  | null
  | bool (b : Bool)
  | int (n : Int)
  | float (x : Float)
  | text (t : Text)
  | array (items : List Value)
  | table (entries : List (Text × Value))
  | moment (m : Moment)
  | date (d : Date)
  | clock (c : Clock)
  deriving Inhabited

namespace Value

/-- The type of a value, as messages name it. -/
def typeName : Value → String
  | null => "NoneType"
  | bool _ => "bool"
  | int _ => "int"
  | float _ => "float"
  | text _ => "str"
  | array _ => "list"
  | table _ => "dict"
  | moment _ => "datetime.datetime"
  | date _ => "datetime.date"
  | clock _ => "datetime.time"

/-- The type of a value without the family it belongs to. -/
def shortTypeName : Value → String
  | moment _ => "datetime"
  | date _ => "date"
  | clock _ => "time"
  | v => v.typeName

/-- Whether a value counts as yes: zero and what is empty do not. -/
def isTruthy : Value → Bool
  | null => false
  | bool b => b
  | int n => n ≠ 0
  | float x => !(x == 0)
  | text t => !t.isEmpty
  | array items => !items.isEmpty
  | table entries => !entries.isEmpty
  | moment _ => true
  | date _ => true
  | clock _ => true

/-- The entry of a table under a key. -/
def lookup (key : Text) : List (Text × Value) → Option Value
  | [] => none
  | (k, v) :: rest => if k = key then some v else lookup key rest

end Value

/-- A value in its role as a number. -/
inductive Number where
  | int (n : Int)
  | float (x : Float)

namespace Number

/-- The order of a whole number and a finite binary fraction, decided without rounding. -/
def compareExact (n : Int) (x : Float) : Ordering :=
  let (negative, m, q) := Decimal.parts x
  let scaled := (m : Int) * Nat.pow 2 q.toNat
  compare (n * Nat.pow 2 (-q).toNat) (if negative then -scaled else scaled)

/-- The order of two numbers; there is none if one of them is no number at all. -/
def compare? : Number → Number → Option Ordering
  | int a, int b => some (compare a b)
  | float a, float b =>
    if a < b then some .lt else if b < a then some .gt else if a == b then some .eq else none
  | int a, float b => order a b
  | float a, int b => (order b a).map Ordering.swap
where
  /-- The order of a whole number and a binary fraction. -/
  order (n : Int) (x : Float) : Option Ordering :=
    if x.isNaN then none
    else if x.isInf then some (if x < 0 then .gt else .lt)
    else some (compareExact n x)

/-- A whole number as a binary fraction. -/
def floatOfInt (n : Int) : Float :=
  match n with
  | .ofNat m => Decimal.toFloat m 0
  | .negSucc m => -(Decimal.toFloat (m + 1) 0)

/-- The difference of a whole number and a number. -/
def minus (n : Int) : Number → Number
  | int m => int (n - m)
  | float x => float (floatOfInt n - x)

/-- The sum of a whole number and a number. -/
def plus (n : Int) : Number → Number
  | int m => int (n + m)
  | float x => float (floatOfInt n + x)

/-- Whether the first number is above the second. -/
def isAbove (a b : Number) : Bool := a.compare? b = some .gt

end Number

namespace Value

/-- The number that a value is; flags count as zero and one. -/
def number? : Value → Option Number
  | bool b => some (.int (if b then 1 else 0))
  | int n => some (.int n)
  | float x => some (.float x)
  | _ => none

/-- The value that a number is. -/
def ofNumber : Number → Value
  | .int n => int n
  | .float x => float x

/-- Whether two values that are not both arrays or both tables are equal. Numbers are equal by
size, whatever their types. -/
def equalScalar (v w : Value) : Bool :=
  match v.number?, w.number? with
  | some a, some b => a.compare? b = some .eq
  | none, none =>
    match v, w with
    | null, null => true
    | text a, text b => a = b
    | moment a, moment b => a = b
    | date a, date b => a = b
    | clock a, clock b => a = b
    | _, _ => false
  | _, _ => false

mutual

/-- Whether two values are equal; the order of keys does not count. -/
def equal : Value → Value → Bool
  | array v, array w => equalItems v w
  | table v, table w => v.length = w.length && equalEntries v w
  | v, w => equalScalar v w

/-- Whether two arrays hold equal items. -/
def equalItems : List Value → List Value → Bool
  | [], [] => true
  | v :: vs, w :: ws => equal v w && equalItems vs ws
  | _, _ => false

/-- Whether every entry is found with an equal value in the other table. -/
def equalEntries : List (Text × Value) → List (Text × Value) → Bool
  | [], _ => true
  | (k, v) :: rest, entries =>
    (match lookup k entries with
      | some w => equal v w
      | none => false) && equalEntries rest entries

end

mutual

/-- A value as it appears inside of another one. A number in it may have too many digits. -/
def literal : Value → Except Fault Text
  | null => .ok "None".toList
  | bool b => .ok (if b then "True".toList else "False".toList)
  | int n => Text.writeInt n
  | float x => .ok (Decimal.ofFloat x).toList
  | text t => .ok t.quoted
  | array items => do .ok ('[' :: (← literalItems items) ++ [']'])
  | table entries => do .ok ('\x7b' :: (← literalEntries entries) ++ ['\x7d'])
  | moment m => .ok m.shown
  | date d => .ok d.shown
  | clock c => .ok c.shown

/-- Items with commas between them. -/
def literalItems : List Value → Except Fault Text
  | [] => .ok []
  | [v] => literal v
  | v :: rest => do
    let first ← literal v
    .ok (first ++ ", ".toList ++ (← literalItems rest))

/-- Entries with commas between them. -/
def literalEntries : List (Text × Value) → Except Fault Text
  | [] => .ok []
  | [(k, v)] => do .ok (k.quoted ++ ": ".toList ++ (← literal v))
  | (k, v) :: rest => do
    let first ← literal v
    .ok (k.quoted ++ ": ".toList ++ first ++ ", ".toList ++ (← literalEntries rest))

end

/-- A value as messages show it: a text as it is, and a moment in its written form with a blank
between its day and its time. -/
def shown : Value → Except Fault Text
  | text t => .ok t
  | moment m => .ok (m.written ' ')
  | date d => .ok d.written
  | clock c => .ok c.written
  | v => v.literal

end Value

end Emend
