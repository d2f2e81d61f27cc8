import Emend.Document.Writer

/-!
# Strings and numbers as they are written

A string is written in quotes, with escapes for quotes, backslashes and control
characters, and a whole number in decimal. Both are read back from the front of
whatever follows them, as long as that starts with a comma or a newline, as it
does in a written document.

A whole number needs more care than a string: a time, a number in another base
and a fraction may start with the same digits, so each of those readers has to
refuse the digits before they are taken for a number.
-/

namespace Emend.Document

/-- What follows a value in a written document: a comma or the end of a line. -/
def Stops (rest : Text) : Prop := rest.head? = some ',' ∨ rest.head? = some '\n'

theorem Stops.cases {rest : Text} (stops : Stops rest) :
    ∃ more, rest = ',' :: more ∨ rest = '\n' :: more := by
  cases rest with
  | nil => simp [Stops] at stops
  | cons c more =>
    simp only [Stops, List.head?_cons, Option.some.injEq] at stops
    rcases stops with rfl | rfl
    · exact ⟨more, .inl rfl⟩
    · exact ⟨more, .inr rfl⟩

/-! ### Strings -/

/-- A letter after a backslash is read as the character it is written for. -/
theorem escaped?_of_escapeLetter? {c letter : Char} (written : escapeLetter? c = some letter) :
    escaped? letter = some c := by
  unfold escapeLetter? at written
  iterate 6
    split at written
    · rename_i same
      cases written
      rw [same]
      rfl
  cases written

/-- The four digits of a control character are read as its number. -/
theorem scalar?_hexadecimal : ∀ n < 128, (Text.hexadecimal 4 n).length = 4 ∧
    scalar? (Text.hexadecimal 4 n) = some (Char.ofNat n) := by decide

theorem basic_escaped {letter c : Char} (meaning : escaped? letter = some c) (rest : Text) :
    basic ('\\' :: letter :: rest) = (basic rest).map fun p => (c :: p.1, p.2) := by
  rw [basic]
  · rw [meaning]
    cases basic rest <;> rfl
  · rintro _ _ _ _ _ rfl
    cases meaning
  · rintro _ _ _ _ _ _ _ _ _ rfl
    cases meaning

theorem toNat_lt_of_isControl {c : Char} (control : isControl c = true) : c.toNat < 128 := by
  simp only [isControl, Bool.or_eq_true, Bool.and_eq_true, decide_eq_true_eq] at control
  omega

/-- A character of a string is read back, whichever way it is written. -/
theorem basic_writeChar (c : Char) (rest : Text) :
    basic (writeChar c ++ rest) = (basic rest).map fun p => (c :: p.1, p.2) := by
  unfold writeChar
  split
  · rename_i letter written
    exact basic_escaped (escaped?_of_escapeLetter? written) rest
  · rename_i plain
    have other : c ≠ '"' ∧ c ≠ '\\' := by
      constructor <;> rintro rfl <;> cases plain
    split
    · rename_i control
      obtain ⟨width, number⟩ := scalar?_hexadecimal c.toNat (toNat_lt_of_isControl control)
      match digits : Text.hexadecimal 4 c.toNat, width with
      | [i, j, k, l], _ =>
        rw [digits] at number
        change basic ('\\' :: 'u' :: i :: j :: k :: l :: rest) = _
        rw [basic, number, Char.ofNat_toNat]
        cases basic rest <;> rfl
    · rename_i printed
      change basic (c :: rest) = _
      rw [basic]
      · rw [if_neg other.1, if_neg (by simp [printed, other.2])]
        cases basic rest <;> rfl
      · exact fun _ _ _ _ _ same _ => other.2 same
      · exact fun _ _ _ _ _ _ _ _ _ same _ => other.2 same
      · exact fun _ _ same _ => other.2 same

/-- What is written between quotes is read up to the closing one. -/
theorem basic_flatMap_writeChar (t rest : Text) :
    basic (t.flatMap writeChar ++ '"' :: rest) = some (t, rest) := by
  induction t with
  | nil => simp [basic]
  | cons c t inductionHypothesis =>
    rw [List.flatMap_cons, List.append_assoc, basic_writeChar, inductionHypothesis]
    rfl

/-- A character of a string is not written as a quote first. -/
theorem head?_writeChar_ne (c : Char) : (writeChar c).head? ≠ some '"' := by
  unfold writeChar
  split
  · simp
  · rename_i plain
    split
    · simp
    · simp only [List.head?_cons, ne_eq, Option.some.injEq]
      rintro rfl
      cases plain

theorem head?_flatMap_writeChar_ne (t rest : Text) (apart : rest.head? ≠ some '"') :
    ∀ more, t.flatMap writeChar ++ '"' :: rest ≠ '"' :: '"' :: more := by
  intro more same
  cases t with
  | nil =>
    simp only [List.flatMap_nil, List.nil_append, List.cons.injEq, true_and] at same
    exact apart (by rw [same]; rfl)
  | cons c t =>
    have first := congrArg List.head? same
    rw [List.flatMap_cons, List.append_assoc, List.head?_append] at first
    cases written : (writeChar c).head? with
    | none =>
      rw [List.head?_eq_none_iff] at written
      unfold writeChar at written
      split at written
      · cases written
      · split at written <;> cases written
    | some d =>
      rw [written] at first
      have quote : d = '"' := Option.some.inj first
      exact head?_writeChar_ne c (quote ▸ written)

/-- A written string is read back. It starts with one quote and not with three,
unless it is empty and a quote follows it. -/
theorem string_writeString (t : Text) {rest : Text} (apart : rest.head? ≠ some '"') :
    string (writeString t ++ rest) = some (t, rest) := by
  have body : writeString t ++ rest = '"' :: (t.flatMap writeChar ++ '"' :: rest) := by
    simp [writeString]
  rw [body, string]
  · exact basic_flatMap_writeChar t rest
  · exact fun more same => head?_flatMap_writeChar_ne t rest apart more same

/-! ### Whole numbers -/

/-- The digits of a number, after its sign. -/
theorem toList_ofInt (n : Int) :
    (Text.ofInt n).toList = (if n < 0 then ['-'] else []) ++ Nat.toDigits 10 n.natAbs := by
  cases n with
  | ofNat m => simp [Text.ofInt]
  | negSucc m => simp [Text.ofInt, Int.negSucc_lt_zero]

theorem isAsciiDigit_of_mem_toDigits {n : Nat} {c : Char} (member : c ∈ Nat.toDigits 10 n) :
    Text.isAsciiDigit c = true := by
  have digit := Nat.isDigit_of_mem_toDigits (by decide) (by decide) member
  simpa [Char.isDigit, Text.isAsciiDigit, Char.le_def, ge_iff_le] using digit

/-- A number has a first digit. -/
theorem exists_toDigits_eq_cons (n : Nat) :
    ∃ c more, Nat.toDigits 10 n = c :: more ∧ Text.isAsciiDigit c = true := by
  cases digits : Nat.toDigits 10 n with
  | nil => exact absurd digits Nat.toDigits_ne_nil
  | cons c more => exact ⟨c, more, rfl, isAsciiDigit_of_mem_toDigits (n := n) (by simp [digits])⟩

/-- A digit is no other character. -/
theorem ne_of_isAsciiDigit {c d : Char} (digit : Text.isAsciiDigit c = true)
    (other : Text.isAsciiDigit d = false) : c ≠ d := by
  rintro rfl
  simp [digit] at other

theorem digitValue?_of_isAsciiDigit {c : Char} (digit : Text.isAsciiDigit c = true) :
    Text.digitValue? c = some (c.toNat - 48) := by
  rw [Text.digitValue?, if_pos digit]

theorem isAsciiDigit_iff (c : Char) : Text.isAsciiDigit c = true ↔ 48 ≤ c.toNat ∧ c.toNat ≤ 57 := by
  simp [Text.isAsciiDigit, Char.le_def, UInt32.le_iff_toNat_le]

theorem isDigitOf_of_isAsciiDigit {c : Char} (digit : Text.isAsciiDigit c = true) :
    Text.isDigitOf 10 c = true := by
  rw [Text.isDigitOf, digitValue?_of_isAsciiDigit digit]
  rw [isAsciiDigit_iff] at digit
  simp only [decide_eq_true_eq]
  omega

/-- Digits denote the number that they are the digits of. -/
theorem number_toDigits (n : Nat) : Text.number 10 (Nat.toDigits 10 n) = n := by
  have fold (f : Nat → Char → Nat) (digits : Text) (start : Nat)
      (step : ∀ c ∈ digits, ∀ n, f n c = 10 * n + (c.toNat - 48)) :
      digits.foldl f start = Nat.ofDigitChars 10 digits start := by
    induction digits generalizing start with
    | nil => rfl
    | cons c digits inductionHypothesis =>
      rw [List.foldl_cons, step c List.mem_cons_self,
        inductionHypothesis _ fun d member => step d (List.mem_cons_of_mem c member)]
      rfl
  rw [Text.number, fold, Nat.ofDigitChars_toDigits (by decide) (by decide)]
  intro c member n
  rw [digitValue?_of_isAsciiDigit (isAsciiDigit_of_mem_toDigits member), Nat.mul_comm]

/-- The first digit of a number is zero only if the number is. -/
theorem head?_toDigits_ne_zero {n : Nat} (positive : 0 < n) :
    (Nat.toDigits 10 n).head? ≠ some '0' := by
  induction n using Nat.strongRecOn with
  | ind n inductionHypothesis =>
    by_cases small : n < 10
    · have nine : ∀ n < 10, 0 < n → n.digitChar ≠ '0' := by decide
      rw [Nat.toDigits_of_lt_base small]
      simpa using nine n small positive
    · rw [Nat.toDigits_of_base_le (by decide) (Nat.le_of_not_lt small), List.head?_append]
      have front := inductionHypothesis (n / 10) (by omega) (by omega)
      cases first : (Nat.toDigits 10 (n / 10)).head? with
      | none => exact absurd (List.head?_eq_none_iff.mp first) Nat.toDigits_ne_nil
      | some c =>
        rw [first] at front
        exact front

/-- A run of digits ends where a value does. -/
theorem digitRun_append {digits rest : Text} (all : ∀ c ∈ digits, Text.isAsciiDigit c = true)
    (stops : Stops rest) : digitRun 10 (digits ++ rest) = (digits, rest) := by
  induction digits with
  | nil =>
    obtain ⟨more, rfl | rfl⟩ := stops.cases
    · rw [List.nil_append, digitRun, if_neg (by decide)]
      exact fun _ _ same _ => absurd same (by decide)
    · rw [List.nil_append, digitRun, if_neg (by decide)]
      exact fun _ _ same _ => absurd same (by decide)
  | cons c digits inductionHypothesis =>
    have digit := all c List.mem_cons_self
    rw [List.cons_append, digitRun, if_pos (isDigitOf_of_isAsciiDigit digit),
      inductionHypothesis fun d member => all d (List.mem_cons_of_mem c member)]
    exact fun _ _ same _ => ne_of_isAsciiDigit digit rfl same

/-- The whole part of a number is all of its digits. -/
theorem wholePart_toDigits (n : Nat) {rest : Text} (stops : Stops rest) :
    wholePart (Nat.toDigits 10 n ++ rest) = some (Nat.toDigits 10 n, rest) := by
  rcases Nat.eq_zero_or_pos n with rfl | positive
  · rfl
  have first := head?_toDigits_ne_zero positive
  have all (c : Char) (member : c ∈ Nat.toDigits 10 n) := isAsciiDigit_of_mem_toDigits member
  obtain ⟨c, more, digits, digit⟩ := exists_toDigits_eq_cons n
  rw [digits] at first all ⊢
  have starts : digitRun? 10 (c :: more ++ rest) = some (digitRun 10 (c :: more ++ rest)) := by
    simp [digitRun?, isDigitOf_of_isAsciiDigit digit]
  rw [wholePart, starts, digitRun_append all stops]
  rintro _ same
  obtain ⟨rfl, _⟩ := List.cons.inj same
  exact first rfl

theorem fractionPart_of_stops {rest : Text} (stops : Stops rest) : fractionPart rest = none := by
  obtain ⟨more, rfl | rfl⟩ := stops.cases <;> rfl

theorem exponentPart_of_stops {rest : Text} (stops : Stops rest) : exponentPart rest = none := by
  obtain ⟨more, rfl | rfl⟩ := stops.cases <;> rfl

/-- The sign of a written number. -/
theorem sign_ofInt (n : Int) (rest : Text) :
    sign ((Text.ofInt n).toList ++ rest) =
      (decide (n < 0), Nat.toDigits 10 n.natAbs ++ rest) := by
  rw [toList_ofInt]
  by_cases negative : n < 0
  · simp [negative, sign]
  · obtain ⟨c, more, digits, digit⟩ := exists_toDigits_eq_cons n.natAbs
    have minus : c ≠ '-' := ne_of_isAsciiDigit digit rfl
    have plus : c ≠ '+' := ne_of_isAsciiDigit digit rfl
    simp [negative, sign, digits, minus, plus]

/-- A number with no more digits than are read is read as a decimal number. -/
theorem decimal_ofInt {n : Int} (short : (Nat.toDigits 10 n.natAbs).length ≤ Text.maxDigits)
    {rest : Text} (stops : Stops rest) :
    decimal ((Text.ofInt n).toList ++ rest) = .ok (.int n, rest) := by
  have value : (if n < 0 then -(n.natAbs : Int) else n.natAbs) = n := by
    split <;> omega
  simp only [decimal, sign_ofInt, wholePart_toDigits _ stops, require, fractionPart_of_stops stops,
    exponentPart_of_stops stops, Nat.not_lt.mpr short, number_toDigits, bind, Except.bind,
    Option.isNone_none, Option.map_none, Option.getD_none, Bool.and_self, if_true, if_false,
    decide_eq_true_eq, value]

/-- A written number starts with a zero only if it is zero. -/
theorem ofInt_append_eq_zero_cons {n : Int} {rest more : Text}
    (same : (Text.ofInt n).toList ++ rest = '0' :: more) : more = rest := by
  rw [toList_ofInt] at same
  by_cases negative : n < 0
  · simp [negative] at same
  by_cases zero : n.natAbs = 0
  · simp only [negative, zero, Nat.toDigits_zero, if_false, List.nil_append, List.cons_append,
      List.cons.injEq, true_and] at same
    exact same.symm
  · have first := head?_toDigits_ne_zero (Nat.pos_of_ne_zero zero)
    obtain ⟨c, digits', digits, _⟩ := exists_toDigits_eq_cons n.natAbs
    simp only [negative, digits, if_false, List.nil_append, List.cons_append,
      List.cons.injEq] at same
    exact absurd (by rw [digits, same.1]; rfl) first

/-- A decimal number has no mark of a base. -/
theorem marked_ofInt (n : Int) {rest : Text} (stops : Stops rest) :
    marked ((Text.ofInt n).toList ++ rest) = none := by
  unfold marked
  split
  · rename_i same
    cases ofInt_append_eq_zero_cons same
    simp [Stops] at stops
  · rename_i same
    cases ofInt_append_eq_zero_cons same
    simp [Stops] at stops
  · rename_i same
    cases ofInt_append_eq_zero_cons same
    simp [Stops] at stops
  · rfl

theorem special_ofInt (n : Int) (rest : Text) : special ((Text.ofInt n).toList ++ rest) = none := by
  obtain ⟨c, more, digits, digit⟩ := exists_toDigits_eq_cons n.natAbs
  have infinite : c ≠ 'i' := ne_of_isAsciiDigit digit rfl
  have missing : c ≠ 'n' := ne_of_isAsciiDigit digit rfl
  rw [special, sign_ofInt, digits]
  simp [Ne.symm infinite, Ne.symm missing]

/-- Digits up to the end of a value. -/
inductive Digits : Text → Prop where
  | stop {rest : Text} (stops : Stops rest) : Digits rest
  | digit {c : Char} {more : Text} (digit : Text.isAsciiDigit c = true) (digits : Digits more) :
      Digits (c :: more)

namespace Digits

theorem append {digits rest : Text} (all : ∀ c ∈ digits, Text.isAsciiDigit c = true)
    (stops : Stops rest) : Digits (digits ++ rest) := by
  induction digits with
  | nil => exact .stop stops
  | cons c digits inductionHypothesis =>
    apply digit (all c List.mem_cons_self)
    exact inductionHypothesis fun d member => all d (List.mem_cons_of_mem c member)

/-- Digits that are taken from the front leave digits up to the end. -/
theorem drop {count : Nat} {t : Text} (width : (t.take count).length = count)
    (all : (t.take count).all Text.isAsciiDigit = true) (digits : Digits t) :
    Digits (t.drop count) := by
  induction count generalizing t with
  | zero => exact digits
  | succ count inductionHypothesis =>
    cases digits with
    | stop stops =>
      obtain ⟨more, rfl | rfl⟩ := stops.cases <;> simp [Text.isAsciiDigit] at all
    | digit digit digits =>
      simp only [List.take_succ_cons, List.length_cons, Nat.add_right_cancel_iff, List.all_cons,
        Bool.and_eq_true] at width all
      exact inductionHypothesis width all.2 digits

theorem of_digits {count n : Nat} {t rest : Text} (digits : Digits t)
    (taken : Moment.digits count t = some (n, rest)) : Digits rest := by
  simp only [Moment.digits, Option.ite_none_right_eq_some, Bool.and_eq_true, decide_eq_true_eq,
    Option.some.injEq, Prod.mk.injEq] at taken
  obtain ⟨⟨width, all⟩, _, rfl⟩ := taken
  exact digits.drop width all

/-- After some of the digits of a number comes no mark of a date or a time. -/
theorem after_eq_none {t : Text} (digits : Digits t) {mark : Char}
    (special : mark = '-' ∨ mark = ':') : Moment.after mark t = none := by
  cases digits with
  | stop stops =>
    obtain ⟨more, rfl | rfl⟩ := stops.cases <;> rcases special with rfl | rfl <;> rfl
  | @digit c more digit _ =>
    have other : c ≠ mark := by
      rcases special with rfl | rfl <;> exact ne_of_isAsciiDigit digit rfl
    simp [Moment.after, other]

/-- A number is no date and no time. -/
theorem read_eq_none {t : Text} (digits : Digits t) : Moment.read t = none := by
  have noDate : Moment.date t = none := by
    cases taken : Moment.digits 4 t with
    | none => simp [Moment.date, taken]
    | some p => simp [Moment.date, taken, (digits.of_digits taken).after_eq_none (.inl rfl)]
  have noClock : Moment.clock t = none := by
    cases taken : Moment.digits 2 t with
    | none => simp [Moment.clock, Moment.two, taken]
    | some p =>
      simp [Moment.clock, Moment.two, taken, (digits.of_digits taken).after_eq_none (.inr rfl)]
  simp [Moment.read, noDate, noClock]

end Digits

theorem momentRead_ofInt (n : Int) {rest : Text} (stops : Stops rest) :
    Moment.read ((Text.ofInt n).toList ++ rest) = none := by
  rw [toList_ofInt]
  by_cases negative : n < 0
  · simp [negative, Moment.read, Moment.date, Moment.clock, Moment.two, Moment.digits,
      Text.isAsciiDigit]
  · simp only [negative, if_false, List.nil_append]
    exact (Digits.append (fun c member => isAsciiDigit_of_mem_toDigits member) stops).read_eq_none

/-! ### Scalars -/

theorem scalar_writeString (t : Text) {rest : Text} (stops : Stops rest) :
    scalar (writeString t ++ rest) = .ok (.text t, rest) := by
  have apart : rest.head? ≠ some '"' := by
    rcases stops with stops | stops <;> simp [stops]
  have starts : writeString t ++ rest = '"' :: (t.flatMap writeChar ++ '"' :: rest) := by
    simp [writeString]
  have read := string_writeString t apart
  rw [starts] at read ⊢
  simp [scalar, read, require]

/-- The first character of a written number tells it from strings and words. -/
theorem ofInt_starts (n : Int) : ∃ c more, (Text.ofInt n).toList = c :: more ∧
    ∀ d, d ≠ '-' ∧ Text.isAsciiDigit d = false → c ≠ d := by
  rw [toList_ofInt]
  by_cases negative : n < 0
  · refine ⟨'-', Nat.toDigits 10 n.natAbs, by simp [negative], ?_⟩
    intro d special
    exact special.1.symm
  · obtain ⟨c, more, digits, digit⟩ := exists_toDigits_eq_cons n.natAbs
    refine ⟨c, more, by simp [negative, digits], ?_⟩
    intro d special
    exact ne_of_isAsciiDigit digit special.2

theorem scalar_ofInt {n : Int} (short : (Nat.toDigits 10 n.natAbs).length ≤ Text.maxDigits)
    {rest : Text} (stops : Stops rest) :
    scalar ((Text.ofInt n).toList ++ rest) = .ok (.int n, rest) := by
  have moment := momentRead_ofInt n stops
  have number : number ((Text.ofInt n).toList ++ rest) = .ok (.int n, rest) := by
    rw [Document.number, marked_ofInt n stops, special_ofInt]
    exact decimal_ofInt short stops
  obtain ⟨c, more, starts, other⟩ := ofInt_starts n
  have double := other '"' (by decide)
  have single := other '\'' (by decide)
  have notTrue := other 't' (by decide)
  have notFalse := other 'f' (by decide)
  rw [starts] at moment number ⊢
  simp only [List.cons_append] at moment number ⊢
  simp [scalar, double, single, Ne.symm notTrue, Ne.symm notFalse, moment, number]

theorem scalar_bool (b : Bool) (rest : Text) :
    scalar ((if b then "true".toList else "false".toList) ++ rest) = .ok (.bool b, rest) := by
  cases b <;> simp [scalar]

end Emend.Document
