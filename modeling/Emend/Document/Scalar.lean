import Emend.Document.Moment

/-!
# Strings and numbers

The strings and numbers of a document of settings. Every reader takes its value from the front of
the text and gives back the rest.
-/

namespace Emend.Document

/-- Why a text is not read: it is no document, or a number in it has too many digits. -/
inductive Refusal where
  | malformed
  | tooManyDigits (count : Nat)
  deriving DecidableEq, Repr

/-- A value that has to be there. -/
def require {α : Type} : Option α → Except Refusal α
  | some a => .ok a
  | none => .error .malformed

/-- Control characters other than the tab; no string or comment holds one as it is. -/
def isControl (c : Char) : Bool := (c.toNat < 32 && c ≠ '\t') || c.toNat = 127

/-- Blanks within a line. -/
def isGap (c : Char) : Bool := c = ' ' || c = '\t'

/-- The character that a backslash and a letter stand for. -/
def escaped? (c : Char) : Option Char :=
  if c = 'b' then some '\x08'
  else if c = 't' then some '\t'
  else if c = 'n' then some '\n'
  else if c = 'f' then some '\x0c'
  else if c = 'r' then some '\r'
  else if c = '"' then some '"'
  else if c = '\\' then some '\\'
  else none

/-- The character that hexadecimal digits stand for. -/
def scalar? (t : Text) : Option Char :=
  if t.all (Text.isDigitOf 16) then
    let n := Text.number 16 t
    if n < 0xd800 || (0xdfff < n && n < 0x110000) then some (Char.ofNat n) else none
  else none

/-- A string on one line after its opening quote, with escapes. -/
def basic : Text → Option (Text × Text)
  | '\\' :: 'u' :: a :: b :: c :: d :: rest => do
    let first ← scalar? [a, b, c, d]
    let (more, rest) ← basic rest
    some (first :: more, rest)
  | '\\' :: 'U' :: a :: b :: c :: d :: e :: f :: g :: h :: rest => do
    let first ← scalar? [a, b, c, d, e, f, g, h]
    let (more, rest) ← basic rest
    some (first :: more, rest)
  | '\\' :: c :: rest => do
    let first ← escaped? c
    let (more, rest) ← basic rest
    some (first :: more, rest)
  | c :: rest =>
    if c = '"' then some ([], rest)
    else if isControl c || c = '\\' then none
    else do
      let (more, rest) ← basic rest
      some (c :: more, rest)
  | [] => none

/-- What is passed over in a string of several lines. -/
inductive Passing where
  | nothing
  /-- Blanks between a backslash and the end of its line. -/
  | toLineEnd
  /-- Blanks and line ends after that. -/
  | margin
  deriving DecidableEq, Repr

/-- Quotes that belong to the string although the closing quotes have begun: at most two. -/
def extraQuotes (quote : Char) : Text → Text × Text
  | a :: b :: rest =>
    if a = quote then if b = quote then ([a, b], rest) else ([a], b :: rest)
    else ([], a :: b :: rest)
  | [a] => if a = quote then ([a], []) else ([], [a])
  | [] => ([], [])

/-- A string of several lines after its opening quotes, with escapes. A backslash at the end of a
line passes over the end and the blanks after it. -/
def basicLines : Passing → Text → Option (Text × Text)
  | .toLineEnd, c :: rest =>
    if isGap c then basicLines .toLineEnd rest
    else if c = '\n' then basicLines .margin rest
    else none
  | .margin, ' ' :: rest => basicLines .margin rest
  | .margin, '\t' :: rest => basicLines .margin rest
  | .margin, '\n' :: rest => basicLines .margin rest
  | _, '"' :: '"' :: '"' :: rest => some (extraQuotes '"' rest)
  | _, '\\' :: 'u' :: a :: b :: c :: d :: rest => do
    let first ← scalar? [a, b, c, d]
    let (more, rest) ← basicLines .nothing rest
    some (first :: more, rest)
  | _, '\\' :: 'U' :: a :: b :: c :: d :: e :: f :: g :: h :: rest => do
    let first ← scalar? [a, b, c, d, e, f, g, h]
    let (more, rest) ← basicLines .nothing rest
    some (first :: more, rest)
  | _, '\\' :: c :: rest =>
    if c = '\n' then basicLines .margin rest
    else if isGap c then basicLines .toLineEnd rest
    else do
      let first ← escaped? c
      let (more, rest) ← basicLines .nothing rest
      some (first :: more, rest)
  | _, c :: rest =>
    if (isControl c && c ≠ '\n') || c = '\\' then none
    else do
      let (more, rest) ← basicLines .nothing rest
      some (c :: more, rest)
  | _, [] => none

/-- A string on one line after its opening quote, without escapes. -/
def verbatim : Text → Option (Text × Text)
  | [] => none
  | c :: rest =>
    if c = '\'' then some ([], rest)
    else if isControl c then none
    else do
      let (more, rest) ← verbatim rest
      some (c :: more, rest)

/-- A string of several lines after its opening quotes, without escapes. -/
def verbatimLines : Text → Option (Text × Text)
  | '\'' :: '\'' :: '\'' :: rest => some (extraQuotes '\'' rest)
  | c :: rest =>
    if isControl c && c ≠ '\n' then none
    else do
      let (more, rest) ← verbatimLines rest
      some (c :: more, rest)
  | [] => none

/-- A text without the newline that it starts with. -/
def withoutNewline : Text → Text
  | '\n' :: rest => rest
  | t => t

/-- A string of any form. -/
def string : Text → Option (Text × Text)
  | '"' :: '"' :: '"' :: rest => basicLines .nothing (withoutNewline rest)
  | '"' :: rest => basic rest
  | '\'' :: '\'' :: '\'' :: rest => verbatimLines (withoutNewline rest)
  | '\'' :: rest => verbatim rest
  | _ => none

/-- Digits of a base, which single underscores may divide; the underscores are left out. -/
def digitRun (base : Nat) : Text → Text × Text
  | '_' :: c :: rest =>
    if Text.isDigitOf base c then
      let (more, rest) := digitRun base rest
      (c :: more, rest)
    else ([], '_' :: c :: rest)
  | c :: rest =>
    if Text.isDigitOf base c then
      let (more, rest) := digitRun base rest
      (c :: more, rest)
    else ([], c :: rest)
  | [] => ([], [])

/-- At least one digit, and not an underscore first. -/
def digitRun? (base : Nat) (t : Text) : Option (Text × Text) :=
  if t.head?.any (Text.isDigitOf base) then some (digitRun base t) else none

/-- A sign, if there is one; whether it is that of negative numbers. -/
def sign : Text → Bool × Text
  | c :: rest =>
    if c = '-' then (true, rest) else if c = '+' then (false, rest) else (false, c :: rest)
  | [] => (false, [])

/-- The whole part of a decimal number: zero, or digits of which the first is not zero. -/
def wholePart : Text → Option (Text × Text)
  | '0' :: rest => some (['0'], rest)
  | t => digitRun? 10 t

/-- The digits after a decimal point, if there are any. -/
def fractionPart (t : Text) : Option (Text × Text) :=
  match t with
  | '.' :: rest => digitRun? 10 rest
  | _ => none

/-- An exponent, if there is one. -/
def exponentPart (t : Text) : Option (Int × Text) :=
  match t with
  | c :: rest =>
    if c = 'e' || c = 'E' then
      let (negative, rest) := sign rest
      (digitRun? 10 rest).map fun (digits, rest) =>
        let n : Int := Text.number 10 digits
        (if negative then -n else n, rest)
    else none
  | [] => none

/-- A decimal number, whole or not. A whole one may not have too many digits. -/
def decimal (t : Text) : Except Refusal (Value × Text) := do
  let (negative, t) := sign t
  let (whole, t) ← require (wholePart t)
  let fraction := fractionPart t
  let t := (fraction.map (·.2)).getD t
  let exponent := exponentPart t
  let t := (exponent.map (·.2)).getD t
  if fraction.isNone && exponent.isNone then
    if Text.maxDigits < whole.length then .error (.tooManyDigits whole.length)
    else
      let n : Int := Text.number 10 whole
      .ok (.int (if negative then -n else n), t)
  else
    let places := (fraction.map (·.1)).getD []
    let power := (exponent.map (·.1)).getD 0
    let x := Decimal.toFloat (Text.number 10 (whole ++ places)) (power - places.length)
    .ok (.float (if negative then -x else x), t)

/-- A whole number in a base after the mark of the base. -/
def based (base : Nat) (t : Text) : Option (Value × Text) :=
  (digitRun? base t).map fun (digits, rest) => (.int (Text.number base digits), rest)

/-- A whole number after the mark of its base, if there is such a mark. -/
def marked (t : Text) : Option (Value × Text) :=
  match t with
  | '0' :: 'x' :: rest => based 16 rest
  | '0' :: 'o' :: rest => based 8 rest
  | '0' :: 'b' :: rest => based 2 rest
  | _ => none

/-- Infinity, or no number at all; either may have a sign. -/
def special (t : Text) : Option (Value × Text) :=
  let (negative, rest) := sign t
  if "inf".toList.isPrefixOf rest then
    some (.float (if negative then -1.0 / 0.0 else 1.0 / 0.0), rest.drop 3)
  else if "nan".toList.isPrefixOf rest then some (.float (0.0 / 0.0), rest.drop 3)
  else none

/-- A number of any form. -/
def number (t : Text) : Except Refusal (Value × Text) :=
  match (marked t).or (special t) with
  | some found => .ok found
  | none => decimal t

end Emend.Document
