import Emend.Fault

/-!
# UTF-8 as a bijection

A character has one form: a start byte and up to three continuations, with the
restrictions that rule out longer spellings, surrogates and numbers past the last
code point. Encoding writes the form of each character, and decoding reads one form
after the other and refuses everything else. So bytes are decoded to a text exactly
if they are its encoding, and bytes that are no encoding of any text are refused.

Which bytes are UTF-8 is not decided here. The encoding of a character is that of
the standard library, and so are the bytes that are valid.
-/

namespace Emend.Text

/-- The bytes of one character and its number. -/
inductive Form : List UInt8 → Nat → Prop where
  | one {a : UInt8} (start : a.toNat < 0x80) : Form [a] a.toNat
  | two {a b : UInt8} (low : 0xC2 ≤ a.toNat) (high : a.toNat < 0xE0)
      (next : continuesStart a b = true) : Form [a, b] (a.toNat % 32 * 64 + payload b)
  | three {a b c : UInt8} (low : 0xE0 ≤ a.toNat) (high : a.toNat < 0xF0)
      (next : continuesStart a b = true) (last : continues c = true) :
      Form [a, b, c] (a.toNat % 16 * 4096 + payload b * 64 + payload c)
  | four {a b c d : UInt8} (low : 0xF0 ≤ a.toNat) (high : a.toNat < 0xF5)
      (next : continuesStart a b = true) (third : continues c = true)
      (last : continues d = true) :
      Form [a, b, c, d] (a.toNat % 8 * 262144 + payload b * 4096 + payload c * 64 + payload d)

theorem continues_iff (b : UInt8) : continues b = true ↔ 0x80 ≤ b.toNat ∧ b.toNat < 0xC0 := by
  simp [continues, UInt8.le_iff_toNat_le, UInt8.lt_iff_toNat_lt]

/-- The continuations that may follow a start byte, in numbers. -/
theorem continuesStart_iff (a b : UInt8) :
    continuesStart a b = true ↔ (0x80 ≤ b.toNat ∧ b.toNat < 0xC0) ∧
      (a.toNat = 0xE0 → 0xA0 ≤ b.toNat) ∧ (a.toNat = 0xED → b.toNat < 0xA0) ∧
      (a.toNat = 0xF0 → 0x90 ≤ b.toNat) ∧ (a.toNat = 0xF4 → b.toNat < 0x90) := by
  have same (n : UInt8) : a = n ↔ a.toNat = n.toNat := UInt8.toNat_inj.symm
  simp only [continuesStart, Bool.and_eq_true, continues_iff, same, UInt8.reduceToNat]
  by_cases atE0 : a.toNat = 0xE0
  · simp [atE0, UInt8.le_iff_toNat_le]
  by_cases atED : a.toNat = 0xED
  · simp [atED, UInt8.lt_iff_toNat_lt]
  by_cases atF0 : a.toNat = 0xF0
  · simp [atF0, UInt8.le_iff_toNat_le]
  by_cases atF4 : a.toNat = 0xF4
  · simp [atF4, UInt8.lt_iff_toNat_lt]
  · simp [atE0, atED, atF0, atF4]

/-- A continuation is its low six bits behind its high two. -/
theorem toNat_of_continues {b : UInt8} (continued : continues b = true) :
    b.toNat = 0x80 + payload b ∧ payload b < 64 := by
  rw [continues_iff] at continued
  rw [payload]
  omega

theorem continues_of_continuesStart {a b : UInt8} (continued : continuesStart a b = true) :
    continues b = true :=
  (Bool.and_eq_true _ _ ▸ continued).1

variable {bytes : List UInt8} {n : Nat}

/-- Decoding reads a form and goes on after it. -/
theorem Form.decode_append (form : Form bytes n) (position : Nat) (rest : List UInt8) :
    decodeFrom position (bytes ++ rest) =
      (decodeFrom (position + bytes.length) rest).map (Char.ofNat n :: ·) := by
  rw [decodeFrom.eq_def]
  cases form with
  | one start => simp [UInt8.lt_iff_toNat_lt, start]
  | @two a b low high next =>
    have start : ¬ a.toNat < 0x80 ∧ ¬ a.toNat < 0xC2 ∧ ¬ 0xF5 ≤ a.toNat := by omega
    simp [UInt8.lt_iff_toNat_lt, UInt8.le_iff_toNat_le, start, high, next]
  | @three a b c low high next last =>
    have start : ¬ a.toNat < 0x80 ∧ ¬ a.toNat < 0xC2 ∧ ¬ 0xF5 ≤ a.toNat ∧ ¬ a.toNat < 0xE0 := by
      omega
    simp [UInt8.lt_iff_toNat_lt, UInt8.le_iff_toNat_le, start, high, next, last]
  | @four a b c d low high next third last =>
    have start : ¬ a.toNat < 0x80 ∧ ¬ a.toNat < 0xC2 ∧ ¬ 0xF5 ≤ a.toNat ∧ ¬ a.toNat < 0xE0 ∧
        ¬ a.toNat < 0xF0 := by omega
    simp [UInt8.lt_iff_toNat_lt, UInt8.le_iff_toNat_le, start, next, third, last]

/-- What is decoded is empty or starts with a form. -/
theorem of_decodeFrom_eq_ok {position : Nat} {text : Text}
    (decoded : decodeFrom position bytes = .ok text) :
    (bytes = [] ∧ text = []) ∨
      ∃ form n rest tail, Form form n ∧ bytes = form ++ rest ∧
        decodeFrom (position + form.length) rest = .ok tail ∧ text = Char.ofNat n :: tail := by
  cases bytes with
  | nil =>
    cases decoded
    exact .inl ⟨rfl, rfl⟩
  | cons a rest =>
    right
    rw [decodeFrom.eq_def] at decoded
    simp only [UInt8.lt_iff_toNat_lt, UInt8.le_iff_toNat_le, UInt8.reduceToNat] at decoded
    split at decoded
    · rename_i start
      obtain ⟨tail, further, whole⟩ := map_eq_ok decoded
      exact ⟨[a], _, rest, tail, .one start, rfl, further, whole⟩
    split at decoded
    · cases decoded
    rename_i starts
    obtain ⟨low, high⟩ := not_or.mp starts
    cases rest with
    | nil => cases decoded
    | cons b rest =>
    simp only at decoded
    split at decoded
    · cases decoded
    rename_i next
    rw [Bool.not_eq_true, Bool.not_eq_false'] at next
    split at decoded
    · rename_i short
      obtain ⟨tail, further, whole⟩ := map_eq_ok decoded
      exact ⟨[a, b], _, rest, tail, .two (by omega) short next, rfl, further, whole⟩
    rename_i long
    cases rest with
    | nil => cases decoded
    | cons c rest =>
    simp only at decoded
    split at decoded
    · cases decoded
    rename_i third
    rw [Bool.not_eq_true, Bool.not_eq_false'] at third
    split at decoded
    · rename_i short
      obtain ⟨tail, further, whole⟩ := map_eq_ok decoded
      exact ⟨[a, b, c], _, rest, tail, .three (by omega) short next third, rfl, further, whole⟩
    rename_i longer
    cases rest with
    | nil => cases decoded
    | cons d rest =>
    simp only at decoded
    split at decoded
    · cases decoded
    rename_i last
    rw [Bool.not_eq_true, Bool.not_eq_false'] at last
    obtain ⟨tail, further, whole⟩ := map_eq_ok decoded
    exact ⟨[a, b, c, d], _, rest, tail, .four (by omega) (by omega) next third last, rfl, further,
      whole⟩

theorem toNat_ofNat {n : Nat} (valid : n.isValidChar) : (Char.ofNat n).toNat = n := by
  rw [Char.ofNat, dif_pos valid]
  rfl

theorem toUInt8_eq {n : Nat} {b : UInt8} (same : n = b.toNat) : n.toUInt8 = b := by
  rw [same, Nat.toUInt8_eq, UInt8.ofNat_toNat]

/-- The number of a form is that of a character. -/
theorem Form.valid (form : Form bytes n) : n.isValidChar := by
  rw [Nat.isValidChar]
  cases form with
  | one start => exact .inl (by omega)
  | @two a b low high next =>
    have second := toNat_of_continues (continues_of_continuesStart next)
    omega
  | @three a b c low high next last =>
    have second := toNat_of_continues (continues_of_continuesStart next)
    have third := toNat_of_continues last
    rw [continuesStart_iff] at next
    omega
  | @four a b c d low high next third last =>
    have second := toNat_of_continues (continues_of_continuesStart next)
    have third := toNat_of_continues third
    have fourth := toNat_of_continues last
    rw [continuesStart_iff] at next
    omega

/-- A form is what its character is encoded as. -/
theorem Form.encodeChar_ofNat (form : Form bytes n) : encodeChar (Char.ofNat n) = bytes := by
  have number := toNat_ofNat form.valid
  simp only [encodeChar, number]
  cases form with
  | one start => rw [if_pos start, toUInt8_eq rfl]
  | @two a b low high next =>
    have second := toNat_of_continues (continues_of_continuesStart next)
    rw [if_neg (by omega), if_pos (by omega), toUInt8_eq (b := a) (by omega),
      toUInt8_eq (b := b) (by omega)]
  | @three a b c low high next last =>
    have second := toNat_of_continues (continues_of_continuesStart next)
    have third := toNat_of_continues last
    rw [continuesStart_iff] at next
    rw [if_neg (by omega), if_neg (by omega), if_pos (by omega), toUInt8_eq (b := a) (by omega),
      toUInt8_eq (b := b) (by omega), toUInt8_eq (b := c) (by omega)]
  | @four a b c d low high next third last =>
    have second := toNat_of_continues (continues_of_continuesStart next)
    have third := toNat_of_continues third
    have fourth := toNat_of_continues last
    rw [continuesStart_iff] at next
    rw [if_neg (by omega), if_neg (by omega), if_neg (by omega), toUInt8_eq (b := a) (by omega),
      toUInt8_eq (b := b) (by omega), toUInt8_eq (b := c) (by omega),
      toUInt8_eq (b := d) (by omega)]

theorem toNat_toUInt8 {n : Nat} (small : n < 256) : n.toUInt8.toNat = n := by
  rw [Nat.toUInt8_eq, UInt8.toNat_ofNat']
  omega

/-- Every character is encoded as a form with its number. -/
theorem form_encodeChar (c : Char) : Form (encodeChar c) c.toNat := by
  have valid : c.toNat.isValidChar := c.valid
  rw [Nat.isValidChar] at valid
  generalize number : c.toNat = n at valid
  have low (k : Nat) : (0x80 + k % 64).toUInt8.toNat = 0x80 + k % 64 := toNat_toUInt8 (by omega)
  have payloadLow (k : Nat) : payload (0x80 + k % 64).toUInt8 = k % 64 := by
    rw [payload, low]
    omega
  have continued (k : Nat) : continues (0x80 + k % 64).toUInt8 = true := by
    rw [continues_iff, low]
    omega
  simp only [encodeChar, number]
  split
  · have first : n.toUInt8.toNat = n := toNat_toUInt8 (by omega)
    have form := Form.one (a := n.toUInt8) (by omega)
    rwa [first] at form
  split
  · have first : (0xC0 + n / 64).toUInt8.toNat = 0xC0 + n / 64 := toNat_toUInt8 (by omega)
    have next : continuesStart (0xC0 + n / 64).toUInt8 (0x80 + n % 64).toUInt8 = true := by
      rw [continuesStart_iff, first, low]
      omega
    have form := Form.two (by omega) (by omega) next
    have value : (0xC0 + n / 64) % 32 * 64 + n % 64 = n := by omega
    rwa [first, payloadLow, value] at form
  split
  · have first : (0xE0 + n / 4096).toUInt8.toNat = 0xE0 + n / 4096 := toNat_toUInt8 (by omega)
    have next : continuesStart (0xE0 + n / 4096).toUInt8 (0x80 + n / 64 % 64).toUInt8 = true := by
      rw [continuesStart_iff, first, low]
      omega
    have form := Form.three (by omega) (by omega) next (continued n)
    have value : (0xE0 + n / 4096) % 16 * 4096 + n / 64 % 64 * 64 + n % 64 = n := by omega
    rwa [first, payloadLow, payloadLow, value] at form
  · have first : (0xF0 + n / 262144).toUInt8.toNat = 0xF0 + n / 262144 := toNat_toUInt8 (by omega)
    have next :
        continuesStart (0xF0 + n / 262144).toUInt8 (0x80 + n / 4096 % 64).toUInt8 = true := by
      rw [continuesStart_iff, first, low]
      omega
    have form := Form.four (by omega) (by omega) next (continued (n / 64)) (continued n)
    have value : (0xF0 + n / 262144) % 8 * 262144 + n / 4096 % 64 * 4096 + n / 64 % 64 * 64 +
        n % 64 = n := by omega
    rwa [first, payloadLow, payloadLow, payloadLow, value] at form

theorem encode_append (front back : Text) : encode (front ++ back) = encode front ++ encode back :=
  List.flatMap_append

theorem encode_cons (c : Char) (rest : Text) :
    encode (c :: rest) = encodeChar c ++ encode rest := rfl

/-- What is encoded is decoded. -/
theorem decodeFrom_encode (position : Nat) (text : Text) :
    decodeFrom position (encode text) = .ok text := by
  induction text generalizing position with
  | nil => rfl
  | cons c rest inductionHypothesis =>
    rw [encode_cons, (form_encodeChar c).decode_append, inductionHypothesis, Char.ofNat_toNat]
    rfl

/-- What is decoded was encoded. The induction is on the text, of which each
character is read from one form. -/
theorem encode_of_decodeFrom {position : Nat} {text : Text}
    (decoded : decodeFrom position bytes = .ok text) : encode text = bytes := by
  induction text generalizing position bytes with
  | nil =>
    rcases of_decodeFrom_eq_ok decoded with ⟨rfl, -⟩ | ⟨_, _, _, _, _, _, _, impossible⟩
    · rfl
    · cases impossible
  | cons c rest inductionHypothesis =>
    rcases of_decodeFrom_eq_ok decoded with
      ⟨-, impossible⟩ | ⟨form, n, more, tail, spelt, rfl, further, whole⟩
    · cases impossible
    obtain ⟨rfl, rfl⟩ := List.cons.inj whole
    rw [encode_cons, spelt.encodeChar_ofNat, inductionHypothesis further]

/-- Bytes are decoded to a text exactly if they are its encoding. -/
theorem decode_eq_ok_iff (bytes : List UInt8) (text : Text) :
    decode bytes = .ok text ↔ encode text = bytes := by
  constructor
  · exact encode_of_decodeFrom
  · rintro rfl
    exact decodeFrom_encode 0 text

/-- The encoding of a character is that of the standard library. -/
theorem encodeChar_eq (c : Char) : encodeChar c = String.utf8EncodeChar c := by
  have valid : c.toNat.isValidChar := c.valid
  rw [Nat.isValidChar] at valid
  simp only [encodeChar, String.utf8EncodeChar, Char.toNat_val]
  generalize c.toNat = n at valid
  simp only [Nat.toUInt8_eq]
  by_cases one : n < 0x80
  · rw [if_pos one, if_pos (by omega)]
  by_cases two : n < 0x800
  · have start : n / 64 % 32 + 192 = 0xC0 + n / 64 := by omega
    rw [if_neg one, if_pos two, if_neg (by omega), if_pos (by omega), start, Nat.add_comm (n % 64)]
  by_cases three : n < 0x10000
  · have start : n / 4096 % 16 + 224 = 0xE0 + n / 4096 := by omega
    rw [if_neg one, if_neg two, if_pos three, if_neg (by omega), if_neg (by omega),
      if_pos (by omega), start, Nat.add_comm (n / 64 % 64), Nat.add_comm (n % 64)]
  · have start : n / 262144 % 8 + 240 = 0xF0 + n / 262144 := by omega
    rw [if_neg one, if_neg two, if_neg three, if_neg (by omega), if_neg (by omega),
      if_neg (by omega), start, Nat.add_comm (n / 4096 % 64), Nat.add_comm (n / 64 % 64),
      Nat.add_comm (n % 64)]

/-- Bytes are valid UTF-8 exactly if some text is encoded as them. -/
theorem isValidUTF8_iff (bytes : List UInt8) :
    bytes.toByteArray.IsValidUTF8 ↔ ∃ text, decode bytes = .ok text := by
  have encoded (text : Text) : encode text = text.flatMap String.utf8EncodeChar := by
    rw [encode, funext encodeChar_eq]
  constructor
  · rintro ⟨text, same⟩
    have data := congrArg (fun array => array.data.toList) same
    simp only [List.utf8Encode, List.toList_data_toByteArray] at data
    exact ⟨text, (decode_eq_ok_iff bytes text).mpr ((encoded text).trans data.symm)⟩
  · rintro ⟨text, decoded⟩
    refine ⟨text, ?_⟩
    rw [List.utf8Encode, ← encoded, (decode_eq_ok_iff bytes text).mp decoded]

end Emend.Text
