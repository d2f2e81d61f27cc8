import Emend.Text.Printable

/-!
# Quoted text

A text between quotes, on one line, with every character that cannot be shown written as an escape.
Single quotes are used unless the text has a single quote and no double quote. The backslash, the
quote in use, and the line end, carriage return and tab have two-character escapes; every other
character that is not printable is written by its code point, with two, four or eight digits.
-/

namespace Emend.Text

/-- The quote that needs no escape, where there is one. -/
def quoteFor (t : Text) : Char :=
  if t.any (· = '\'') && !t.any (· = '"') then '"' else '\''

/-- One character between the given quotes. -/
def escape (quote c : Char) : Text :=
  if c = quote ∨ c = '\\' then ['\\', c]
  else if c = '\n' then ['\\', 'n']
  else if c = '\r' then ['\\', 'r']
  else if c = '\t' then ['\\', 't']
  else if isPrintable c then [c]
  else if c.toNat < 0x100 then '\\' :: 'x' :: hexadecimal 2 c.toNat
  else if c.toNat < 0x10000 then '\\' :: 'u' :: hexadecimal 4 c.toNat
  else '\\' :: 'U' :: hexadecimal 8 c.toNat

/-- The text between quotes. -/
def quoted (t : Text) : Text :=
  let quote := quoteFor t
  quote :: t.flatMap (escape quote) ++ [quote]

end Emend.Text

/-- The string between quotes, as `Emend.Text.quoted` writes it. -/
def Emend.quoted (s : String) : String := String.ofList (Emend.Text.quoted s.toList)
