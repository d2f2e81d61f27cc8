/-!
# Texts and classes of characters

A text is its list of code points; every offset, length and column counts code points. A class of
characters is an increasing list of the code points where membership flips, starting outside: a
character is in the class when an odd number of flips lie at or below it. `flipped` reads such a
list, and the classes given here are small enough to be written out.
-/

namespace Emend

/-- A text is the list of its code points. -/
abbrev Text := List Char

namespace Text

/-- Membership in the class whose flips are given in increasing order. -/
def flipped : List Nat → Nat → Bool
  | [], _ => false
  | flip :: rest, c => if c < flip then false else !flipped rest c

/-- Where membership among white space flips. -/
def blankFlips : List Nat := [
  9, 14, 28, 33, 133, 134, 160, 161, 5760, 5761, 8192, 8203, 8232, 8234, 8239, 8240, 8287, 8288,
  12288, 12289]

/-- White space of any script, with the four information separators. -/
def isBlank (c : Char) : Bool := flipped blankFlips c.toNat

/-- The text without the white space at its two ends. -/
def trim (t : Text) : Text :=
  ((t.dropWhile isBlank).reverse.dropWhile isBlank).reverse

/-- The text without the given trailing characters. -/
def trimRight (drop : Char → Bool) (t : Text) : Text :=
  (t.reverse.dropWhile drop).reverse

/-- Whether `part` occurs in the text as consecutive characters. -/
def hasPart (t part : Text) : Bool :=
  match t with
  | [] => part.isEmpty
  | c :: rest => part.isPrefixOf (c :: rest) || hasPart rest part

/-- The order of texts, character by character. -/
def precedes : Text → Text → Bool
  | [], _ => true
  | _ :: _, [] => false
  | c :: s, d :: t => c < d || (c = d && precedes s t)

/-- The parts between occurrences of a character; never empty. -/
def splitAt (separator : Char) : Text → List Text
  | [] => [[]]
  | c :: rest =>
    if c = separator then [] :: splitAt separator rest
    else match splitAt separator rest with
      | [] => [[c]]
      | part :: parts => (c :: part) :: parts

/-- The parts with a text between them. -/
def joinWith (separator : Text) : List Text → Text
  | [] => []
  | [part] => part
  | part :: parts => part ++ separator ++ joinWith separator parts

/-- The characters from `start` up to but excluding `stop`. -/
def slice (t : Text) (start stop : Nat) : Text := (t.drop start).take (stop - start)

/-- An ASCII letter. -/
def isAsciiLetter (c : Char) : Bool := ('a' ≤ c && c ≤ 'z') || ('A' ≤ c && c ≤ 'Z')

/-- An ASCII digit. -/
def isAsciiDigit (c : Char) : Bool := '0' ≤ c && c ≤ '9'

/-- The value of an ASCII digit or letter as a digit: `a` and `A` are ten. Other characters have
none. -/
def digitValue? (c : Char) : Option Nat :=
  if isAsciiDigit c then some (c.toNat - 48)
  else if 'a' ≤ c ∧ c ≤ 'z' then some (c.toNat - 87)
  else if 'A' ≤ c ∧ c ≤ 'Z' then some (c.toNat - 55)
  else none

/-- Whether the character is a digit of the base. -/
def isDigitOf (base : Nat) (c : Char) : Bool :=
  match digitValue? c with
  | some v => v < base
  | none => false

/-- The number that a text of digits denotes in a base; characters that are no digits are passed
over. -/
def number (base : Nat) (t : Text) : Nat :=
  t.foldl (fun n c => match digitValue? c with
    | some v => n * base + v
    | none => n) 0

/-- The most digits of a decimal number that is read or written. -/
def maxDigits : Nat := 4300

/-- Whether a whole number has no more digits than are written. -/
def isWritable (n : Int) : Bool := (Nat.toDigits 10 n.natAbs).length ≤ maxDigits

theorem length_toDigits_le_iff (n : Nat) {count : Nat} (some : 0 < count) :
    (Nat.toDigits 10 n).length ≤ count ↔ n < Nat.pow 10 count :=
  Nat.length_toDigits_le_iff (by decide) some

/-- The numbers that are written are those below a power of ten, whatever their sign. -/
theorem isWritable_iff (n : Int) : isWritable n = true ↔ n.natAbs < Nat.pow 10 maxDigits := by
  rw [isWritable, decide_eq_true_eq, length_toDigits_le_iff _ (by decide)]

theorem isWritable_eq_false_iff (n : Int) :
    isWritable n = false ↔ Nat.pow 10 maxDigits ≤ n.natAbs := by
  rw [← Bool.not_eq_true, isWritable_iff, Nat.not_lt]

theorem lt_pow_digits (count : Nat) : count < Nat.pow 10 count := Nat.lt_pow_self (by decide)

/-- The decimal text of a whole number, however many digits it has. -/
def ofInt (n : Int) : String :=
  match n with
  | .ofNat m => String.ofList (Nat.toDigits 10 m)
  | .negSucc m => "-" ++ String.ofList (Nat.toDigits 10 (m + 1))

/-- The decimal text of a natural number. -/
def ofNat (n : Nat) : String := String.ofList (Nat.toDigits 10 n)

/-- The digits of a number in base sixteen, at least `width` of them. -/
def hexadecimal (width n : Nat) : Text :=
  let digits := Nat.toDigits 16 n
  List.replicate (width - digits.length) '0' ++ digits

end Text

end Emend
