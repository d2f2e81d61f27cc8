import Emend.Text.Class

/-!
# UTF-8

Encoding and strict decoding. Decoding refuses the first sequence that is not well formed and says
which bytes are to blame: a byte that can start no character, a start whose next bytes do not
continue it, or a start that the end of the data cuts short. The blamed bytes are the start and the
continuations that were still acceptable.
-/

namespace Emend.Text

/-- Why bytes are not UTF-8. -/
inductive Utf8Reason where
  | invalidStart
  | invalidContinuation
  | unexpectedEnd
  deriving DecidableEq, Repr

/-- The first bytes that are not UTF-8: `count` of them from `position`, the first being `byte`. -/
structure Utf8Fault where
  byte : UInt8
  position : Nat
  count : Nat
  reason : Utf8Reason
  deriving DecidableEq, Repr

/-- The bytes of one character. -/
def encodeChar (c : Char) : List UInt8 :=
  let n := c.toNat
  if n < 0x80 then [n.toUInt8]
  else if n < 0x800 then [(0xC0 + n / 64).toUInt8, (0x80 + n % 64).toUInt8]
  else if n < 0x10000 then
    [(0xE0 + n / 4096).toUInt8, (0x80 + n / 64 % 64).toUInt8, (0x80 + n % 64).toUInt8]
  else
    [(0xF0 + n / 262144).toUInt8, (0x80 + n / 4096 % 64).toUInt8, (0x80 + n / 64 % 64).toUInt8,
      (0x80 + n % 64).toUInt8]

/-- The bytes of a text. -/
def encode (t : Text) : List UInt8 := t.flatMap encodeChar

/-- A byte that continues a character. -/
def continues (b : UInt8) : Bool := 0x80 ≤ b && b < 0xC0

/-- The continuations that may follow a start byte at once: the ranges that would spell a shorter
form, a surrogate or a number past the last code point are left out. -/
def continuesStart (start b : UInt8) : Bool :=
  continues b &&
    if start = 0xE0 then 0xA0 ≤ b
    else if start = 0xED then b < 0xA0
    else if start = 0xF0 then 0x90 ≤ b
    else if start = 0xF4 then b < 0x90
    else true

/-- The low six bits of a continuation. -/
def payload (b : UInt8) : Nat := b.toNat % 64

/-- The text of the bytes from `position` on. Each character takes its start byte and as many
continuations as the start asks for. -/
def decodeFrom : Nat → List UInt8 → Except Utf8Fault Text
  | _, [] => .ok []
  | position, a :: rest =>
    let blame (count : Nat) (reason : Utf8Reason) : Except Utf8Fault Text :=
      .error ⟨a, position, count, reason⟩
    if a < 0x80 then (decodeFrom (position + 1) rest).map (Char.ofNat a.toNat :: ·)
    else if a < 0xC2 ∨ 0xF5 ≤ a then blame 1 .invalidStart
    else match rest with
      | [] => blame 1 .unexpectedEnd
      | b :: rest =>
        if !continuesStart a b then blame 1 .invalidContinuation
        else if a < 0xE0 then
          (decodeFrom (position + 2) rest).map (Char.ofNat (a.toNat % 32 * 64 + payload b) :: ·)
        else match rest with
          | [] => blame 2 .unexpectedEnd
          | c :: rest =>
            if !continues c then blame 2 .invalidContinuation
            else if a < 0xF0 then
              (decodeFrom (position + 3) rest).map
                (Char.ofNat (a.toNat % 16 * 4096 + payload b * 64 + payload c) :: ·)
            else match rest with
              | [] => blame 3 .unexpectedEnd
              | d :: rest =>
                if !continues d then blame 3 .invalidContinuation
                else (decodeFrom (position + 4) rest).map (Char.ofNat
                  (a.toNat % 8 * 262144 + payload b * 4096 + payload c * 64 + payload d) :: ·)

/-- The text that the bytes encode, or the first bytes that encode none. -/
def decode (bytes : List UInt8) : Except Utf8Fault Text := decodeFrom 0 bytes

/-- The wording of a reason. -/
def Utf8Reason.message : Utf8Reason → String
  | .invalidStart => "invalid start byte"
  | .invalidContinuation => "invalid continuation byte"
  | .unexpectedEnd => "unexpected end of data"

/-- The wording of a decoding fault: one byte is shown, several are given by their positions. -/
def Utf8Fault.message (f : Utf8Fault) : String :=
  let place :=
    if f.count = 1 then
      "byte 0x" ++ String.ofList (hexadecimal 2 f.byte.toNat) ++ " in position " ++ ofNat f.position
    else "bytes in position " ++ ofNat f.position ++ "-" ++ ofNat (f.position + f.count - 1)
  "'utf-8' codec can't decode " ++ place ++ ": " ++ f.reason.message

end Emend.Text
