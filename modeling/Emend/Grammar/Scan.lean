import Emend.Text.Identifier
import Emend.Text.Lower

/-!
# Scanning single tokens

Each scanner takes the text at the start of a token and splits it into the token and the rest, or
refuses it. Nothing is lost: the token followed by the rest is the text.
-/

namespace Emend.Grammar.Scan

/-- A text split into what was taken and the rest. -/
abbrev Split := Text × Text

/-- Put characters that were taken before in front of a split. -/
def Split.prepend (taken : Text) (s : Split) : Split := (taken ++ s.1, s.2)

/-- The end of a line, if the text starts with one. -/
def lineEnd? : Text → Option Split
  | '\r' :: '\n' :: rest => some (['\r', '\n'], rest)
  | '\r' :: rest => some (['\r'], rest)
  | '\n' :: rest => some (['\n'], rest)
  | _ => none

/-- A character that ends a line. -/
def endsLine (c : Char) : Bool := c = '\n' || c = '\r'

/-- Everything up to the end of the line. -/
def restOfLine (t : Text) : Split := (t.takeWhile (!endsLine ·), t.dropWhile (!endsLine ·))

/-- The body of a string up to and including its closing quote; it may not leave its line except
after a backslash. -/
def shortString (quote : Char) : Text → Option Split
  | [] => none
  | '\\' :: '\r' :: '\n' :: rest => (shortString quote rest).map (·.prepend ['\\', '\r', '\n'])
  | '\\' :: c :: rest => (shortString quote rest).map (·.prepend ['\\', c])
  | c :: rest =>
    if c = quote then some ([c], rest)
    else if endsLine c then none
    else (shortString quote rest).map (·.prepend [c])

/-- The body of a string up to and including three closing quotes. -/
def longString (quote : Char) : Text → Option Split
  | [] => none
  | '\\' :: c :: rest => (longString quote rest).map (·.prepend ['\\', c])
  | c :: rest =>
    if [quote, quote, quote].isPrefixOf (c :: rest) then some ([c, c, c], rest.drop 2)
    else (longString quote rest).map (·.prepend [c])

/-- Whether a text starts with three quotes. -/
def isTriple (quote : Char) (t : Text) : Bool := [quote, quote, quote].isPrefixOf t

/-- A string from its opening quote on. -/
def string (quote : Char) (t : Text) : Option Split :=
  if isTriple quote t then (longString quote (t.drop 3)).map (·.prepend (t.take 3))
  else (shortString quote (t.drop 1)).map (·.prepend (t.take 1))

/-- Digits of a class with single underscores between them. An underscore that no digit follows is
refused. -/
def digits (isDigit : Char → Bool) : Text → Option Split
  | '_' :: c :: rest =>
    if isDigit c then (digits isDigit rest).map (·.prepend ['_', c]) else none
  | ['_'] => none
  | c :: rest =>
    if isDigit c then (digits isDigit rest).map (·.prepend [c]) else some ([], c :: rest)
  | [] => some ([], [])

/-- Digits after the mark of their base; there must be one. -/
def based (isDigit : Char → Bool) (t : Text) : Option Split := do
  let (taken, rest) ← digits isDigit t
  if taken.isEmpty then none
  else match rest with
    | c :: _ => if Text.isAsciiDigit c then none else some (taken, rest)
    | [] => some (taken, rest)

/-- An exponent, if there is one. A sign calls for a digit; a letter without digit or sign after it
is no exponent. -/
def exponent (t : Text) : Option Split :=
  match t with
  | e :: sign :: rest =>
    if e = 'e' || e = 'E' then
      if sign = '+' || sign = '-' then
        match rest with
        | c :: _ =>
          if Text.isAsciiDigit c then
            (digits Text.isAsciiDigit rest).map (·.prepend [e, sign])
          else none
        | [] => none
      else if Text.isAsciiDigit sign then
        (digits Text.isAsciiDigit (sign :: rest)).map (·.prepend [e])
      else some ([], t)
    else some ([], t)
  | _ => some ([], t)

/-- The mark of an imaginary number, if there is one. -/
def imaginary (t : Text) : Split :=
  match t with
  | c :: rest => if c = 'j' || c = 'J' then ([c], rest) else ([], t)
  | [] => ([], [])

/-- The digits after a decimal point; there may be none, and they do not start with an
underscore. -/
def fraction (t : Text) : Option Split :=
  match t with
  | c :: _ => if Text.isAsciiDigit c then digits Text.isAsciiDigit t else some ([], t)
  | [] => some ([], [])

/-- What may follow the whole part of a number. -/
def tail (t : Text) : Option Split := do
  let (point, t) ←
    match t with
    | '.' :: rest => (fraction rest).map (·.prepend ['.'])
    | _ => some ([], t)
  let (power, t) ← exponent t
  let (mark, rest) := imaginary t
  some (point ++ power ++ mark, rest)

/-- Whether digits start with a zero and are not all zeros. -/
def isZeroFirst (digits : Text) : Bool :=
  digits.head? = some '0' && digits.any fun c => c ≠ '0' && c ≠ '_'

/-- Whether a text starts with the letter of an exponent. -/
def startsExponent (t : Text) : Bool :=
  match t with
  | c :: _ => c = 'e' || c = 'E'
  | [] => false

/-- A number. A decimal whole number does not start with a zero, unless it is zero or a letter
follows that could have been that of an exponent. -/
def number (t : Text) : Option Split :=
  match t with
  | '0' :: c :: rest =>
    if c = 'x' || c = 'X' then (based (Text.isDigitOf 16) rest).map (·.prepend ['0', c])
    else if c = 'o' || c = 'O' then (based (Text.isDigitOf 8) rest).map (·.prepend ['0', c])
    else if c = 'b' || c = 'B' then (based (Text.isDigitOf 2) rest).map (·.prepend ['0', c])
    else decimal
  | _ => decimal
where
  /-- A decimal number. -/
  decimal : Option Split := do
    let (whole, rest) ←
      match t with
      | '.' :: _ => some ([], t)
      | _ => digits Text.isAsciiDigit t
    let (more, rest) ← tail rest
    if isZeroFirst whole && more.isEmpty && !startsExponent rest then none
    else some (whole ++ more, rest)

/-- Whether a number token is a whole number. -/
def isWhole (t : Text) : Bool :=
  match t with
  | '0' :: c :: _ => c = 'x' || c = 'X' || c = 'o' || c = 'O' || c = 'b' || c = 'B' || plain
  | _ => plain
where
  /-- Digits and underscores only. -/
  plain : Bool := t.all fun c => Text.isAsciiDigit c || c = '_'

/-- Whether a number token is a decimal whole number that starts with a zero but is not zero. -/
def isZeroFirstWhole (t : Text) : Bool := isWhole.plain t && isZeroFirst t

/-- An identifier or keyword: a character that can start one and all that can continue it. -/
def word (t : Text) : Option Split :=
  match t with
  | c :: rest =>
    if Text.startsWord c then
      some (c :: rest.takeWhile Text.continuesWord, rest.dropWhile Text.continuesWord)
    else none
  | [] => none

/-- The letters that may stand before a string, in lower case. -/
def stringLetters : List Text :=
  ["r", "u", "b", "br", "rb"].map String.toList

/-- The letters that may stand before a formatted string, in lower case. -/
def formatLetters : List Text :=
  ["f", "fr", "rf", "t", "tr", "rt"].map String.toList

/-- The symbols, longer ones before those they start with. -/
def symbols : List Text :=
  ["**=", "//=", ">>=", "<<=", "...", "**", "//", ">>", "<<", "<=", ">=", "==", "!=", "->",
    "+=", "-=", "*=", "/=", "%=", "&=", "|=", "^=", "@=", ":=", "+", "-", "*", "/", "%", "@", "&",
    "|", "^", "~", "<", ">", "(", ")", "[", "]", "\x7b", "\x7d", ",", ":", ".", ";", "="].map
    String.toList

/-- The longest symbol that a text starts with. -/
def symbol (t : Text) : Option Split :=
  (symbols.find? fun s => s.isPrefixOf t).map fun s => (s, t.drop s.length)

/-- A piece of the text of a formatted string, up to a brace that opens or closes a field or to the
closing quotes. In the text itself a doubled brace stands for a brace; in a format specification
(`spec`) it does not. Without `triple` the piece may not leave its line except after a backslash,
and in a raw string not even then. The brace that opens the name in a named character escape opens
no field, and while the name is open (`named`) the next closing brace closes it. -/
def formatText (quote : Char) (triple raw spec : Bool) : Bool → Text → Option Split
  | _, [] => none
  | named, '\\' :: rest =>
    match raw, rest with
    | _, [] => none
    | true, c :: more =>
      if c = quote || c = '\\' then
        (formatText quote triple raw spec named more).map (·.prepend ['\\', c])
      else (formatText quote triple raw spec named (c :: more)).map (·.prepend ['\\'])
    | false, '\r' :: '\n' :: more =>
      (formatText quote triple raw spec named more).map (·.prepend ['\\', '\r', '\n'])
    | false, 'N' :: '\x7b' :: more =>
      if spec then
        (formatText quote triple raw spec named ('\x7b' :: more)).map (·.prepend ['\\', 'N'])
      else (formatText quote triple raw spec true more).map (·.prepend ['\\', 'N', '\x7b'])
    | false, c :: more =>
      if c = '\x7b' || c = '\x7d' then
        (formatText quote triple raw spec named (c :: more)).map (·.prepend ['\\'])
      else (formatText quote triple raw spec named more).map (·.prepend ['\\', c])
  | named, '\x7b' :: rest =>
    match spec, rest with
    | false, '\x7b' :: more =>
      (formatText quote triple raw spec named more).map (·.prepend ['\x7b', '\x7b'])
    | _, _ => some ([], '\x7b' :: rest)
  | named, '\x7d' :: rest =>
    if named then (formatText quote triple raw spec false rest).map (·.prepend ['\x7d'])
    else
      match spec, rest with
      | false, '\x7d' :: more =>
        (formatText quote triple raw spec false more).map (·.prepend ['\x7d', '\x7d'])
      | _, _ => some ([], '\x7d' :: rest)
  | named, c :: rest =>
    if c = quote && (!triple || isTriple quote (c :: rest)) then some ([], c :: rest)
    else if endsLine c && !triple then none
    else (formatText quote triple raw spec named rest).map (·.prepend [c])

end Emend.Grammar.Scan
