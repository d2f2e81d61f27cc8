import Emend.Fault

/-!
# Texts with surrogates

A text that was put together elsewhere may hold surrogates, which are code points but no characters.
As contents of a file it then has no bytes. As a path it has: a surrogate from the range of escapes
stands for one byte that is part of no character. The other surrogates stand for none. They are read
as null characters here, since no path holds either of them and both are found out when the bytes of
a path are taken.

The names in a tree are texts. A path whose bytes are no text leads nowhere in it, and no such name
is made.
-/

namespace Emend

/-- A character, or a surrogate by its place among the surrogates. -/
inductive CodePoint where
  | character (c : Char)
  | surrogate (n : Fin 2048)
  deriving DecidableEq, Repr

namespace CodePoint

/-- The character of a code point that is one. -/
def character? : CodePoint → Option Char
  | character c => some c
  | surrogate _ => none

/-- The number of a code point. -/
def code : CodePoint → Nat
  | character c => c.toNat
  | surrogate n => 0xD800 + n

/-- The byte that a surrogate stands for in a path. -/
def escaped? (n : Fin 2048) : Option UInt8 :=
  if 0x480 ≤ n.val ∧ n.val < 0x500 then some (UInt8.ofNat (n.val - 0x400)) else none

/-- The first surrogates of a text, as the reason why it has no bytes. -/
def blame (text : List CodePoint) : FileFault :=
  let place := (text.takeWhile (·.character?.isSome)).length
  let run := (text.drop place).takeWhile (·.character?.isNone)
  .surrogates place run.length ((run.head?.map code).getD 0)

/-- The bytes of a text. -/
def encode (text : List CodePoint) : Except FileFault (List UInt8) :=
  match text.mapM character? with
  | some characters => .ok (Text.encode characters)
  | none => .error (blame text)

end CodePoint

end Emend
