import Emend.Proofs.WrittenScalars

/-!
# Values as they are written

Flags, strings, whole numbers that are not too long, and arrays of these to any
depth have a written form that is read back. Which numbers are too long is
decided by their size, and writing them fails.

An array is written over several lines. Reading it passes over the blanks and
line ends between its items, so the margins that writing adds are not seen. Both
readers count: an array may nest as deep and have as many items as its text is
long, and every item takes a character of that text at least.
-/

namespace Emend.Document

/-- A value that can be written and read back. -/
inductive Storable : Value → Prop where
  | bool (b : Bool) : Storable (.bool b)
  | int {n : Int} (short : n.natAbs < Nat.pow 10 Text.maxDigits) : Storable (.int n)
  | text (t : Text) : Storable (.text t)
  | array {items : List Value} (all : ∀ v ∈ items, Storable v) : Storable (.array items)

/-- Whether a value may start with a character in an array of several lines. -/
def startsValue (c : Char) : Bool := !(isGap c || c = '\n' || c = '#' || c = ']')

/-- A text is read as a value, whatever follows it in a document. -/
structure Spells (text : Text) (v : Value) : Prop where
  starts : text.head?.any startsValue = true
  clean : '\r' ∉ text
  read : ∀ depth rest, text.length ≤ depth → Stops rest →
    valueWithin depth (text ++ rest) = .ok (v, rest)

theorem Spells.exists_cons {text : Text} {v : Value} (spelt : Spells text v) :
    ∃ c more, text = c :: more ∧ startsValue c = true := by
  have starts := spelt.starts
  cases text with
  | nil => cases starts
  | cons c more => exact ⟨c, more, rfl, starts⟩

/-- Writing a whole number fails exactly if it is too long. -/
theorem writeInt_eq_ok_iff (n : Int) (text : Text) :
    Text.writeInt n = .ok text ↔
      n.natAbs < Nat.pow 10 Text.maxDigits ∧ text = (Text.ofInt n).toList := by
  rw [← Text.isWritable_iff]
  cases writable : Text.isWritable n with
  | false => simp [Text.writeInt_of_unwritable writable]
  | true => simp [Text.writeInt_of_writable writable, eq_comm]

/-! ### Values without brackets -/

theorem valueWithin_scalar {c : Char} (bracket : c ≠ '[') (brace : c ≠ '\x7b') (depth : Nat)
    (more : Text) : valueWithin (depth + 1) (c :: more) = scalar (c :: more) := by
  rw [valueWithin]
  · exact fun _ same => bracket (List.cons.inj same).1
  · exact fun _ same => brace (List.cons.inj same).1

/-- A text that is read as a scalar is read as a value. -/
theorem Spells.of_scalar {c : Char} {more : Text} {v : Value} (bracket : c ≠ '[')
    (brace : c ≠ '\x7b') (starts : startsValue c = true) (clean : '\r' ∉ c :: more)
    (read : ∀ rest, Stops rest → scalar (c :: more ++ rest) = .ok (v, rest)) :
    Spells (c :: more) v where
  starts := starts
  clean := clean
  read depth rest deep stops := by
    cases depth with
    | zero => cases deep
    | succ depth => rw [List.cons_append, valueWithin_scalar bracket brace, ← read rest stops]; rfl

theorem spells_bool (b : Bool) :
    Spells (if b then "true".toList else "false".toList) (.bool b) := by
  have read (rest : Text) (_ : Stops rest) := scalar_bool b rest
  cases b <;> exact .of_scalar (by decide) (by decide) (by decide) (by decide) read

theorem spells_int {n : Int} (short : n.natAbs < Nat.pow 10 Text.maxDigits) :
    Spells (Text.ofInt n).toList (.int n) := by
  have read (rest : Text) (stops : Stops rest) :=
    scalar_ofInt ((Text.length_toDigits_le_iff _ (by decide)).mpr short) stops
  have clean : '\r' ∉ (Text.ofInt n).toList := by
    rw [toList_ofInt, List.mem_append]
    rintro (sign | digit)
    · split at sign <;> simp at sign
    · exact absurd (isAsciiDigit_of_mem_toDigits digit) (by decide)
  obtain ⟨c, more, whole, other⟩ := ofInt_starts n
  rw [whole] at read clean ⊢
  have starts : startsValue c = true := by
    have blank := other ' ' (by decide)
    have tab := other '\t' (by decide)
    have newline := other '\n' (by decide)
    have comment := other '#' (by decide)
    have closing := other ']' (by decide)
    simp [startsValue, isGap, blank, tab, newline, comment, closing]
  exact .of_scalar (other _ (by decide)) (other _ (by decide)) starts clean read

/-- A written string holds no carriage return; one inside of it is escaped. -/
theorem return_not_mem_writeString (t : Text) : '\r' ∉ writeString t := by
  have escaped (c : Char) : '\r' ∉ writeChar c := by
    unfold writeChar
    split
    · rename_i letter written
      have meaning := escaped?_of_escapeLetter? written
      simp only [List.mem_cons, List.not_mem_nil, or_false, not_or]
      constructor
      · decide
      · rintro rfl
        cases meaning
    · rename_i plain
      split
      · rename_i control
        have digits : ∀ n < 128, '\r' ∉ Text.hexadecimal 4 n := by decide
        simp [digits c.toNat (toNat_lt_of_isControl control)]
      · simp only [List.mem_singleton]
        rintro rfl
        cases plain
  simp [writeString, escaped]

theorem spells_text (t : Text) : Spells (writeString t) (.text t) := by
  have read (rest : Text) (stops : Stops rest) := scalar_writeString t stops
  have clean := return_not_mem_writeString t
  have whole : writeString t = '"' :: (t.flatMap writeChar ++ ['"']) := rfl
  rw [whole] at read clean ⊢
  exact .of_scalar (by decide) (by decide) (by decide) clean read

/-! ### Arrays -/

/-- Blanks and line ends. -/
def Blank (t : Text) : Prop := ∀ c ∈ t, (isGap c || c = '\n') = true

theorem skipLines_blank {blank : Text} (idle : Blank blank) (rest : Text) :
    skipLines false (blank ++ rest) = skipLines false rest := by
  induction blank with
  | nil => rfl
  | cons c blank inductionHypothesis =>
    rw [List.cons_append, skipLines, if_pos (idle c List.mem_cons_self)]
    exact inductionHypothesis fun d member => idle d (List.mem_cons_of_mem c member)

theorem skipLines_of_startsValue {c : Char} (starts : startsValue c = true) (more : Text) :
    skipLines false (c :: more) = some (c :: more) := by
  simp only [startsValue, Bool.not_eq_true', Bool.or_eq_false_iff,
    decide_eq_false_iff_not] at starts
  simp [skipLines, starts]

theorem blank_margin (depth : Nat) : Blank (margin depth) := by
  intro c member
  rw [List.eq_of_mem_replicate member]
  rfl

/-- A text is read as the items of an array, with the blanks before and after it. -/
structure SpellsItems (lines : Text) (items : List Value) : Prop where
  count : items.length ≤ lines.length
  clean : '\r' ∉ lines
  read : ∀ depth rounds before after rest, lines.length ≤ depth → items.length < rounds →
    Blank before → Blank after →
      arrayItems (valueWithin depth) rounds (before ++ (lines ++ (after ++ ']' :: rest))) =
        .ok (items, rest)

theorem spellsItems_nil : SpellsItems [] [] where
  count := Nat.le_refl 0
  clean := List.not_mem_nil
  read depth rounds before after rest _ more idle idle' := by
    cases rounds with
    | zero => cases more
    | succ rounds =>
      rw [arrayItems, skipLines_blank idle, List.nil_append, skipLines_blank idle']
      rfl

/-- One more item on a line of its own. -/
theorem SpellsItems.cons {blank text lines : Text} {v : Value} {items : List Value}
    (idle : Blank blank) (spelt : Spells text v) (more : SpellsItems lines items) :
    SpellsItems (blank ++ text ++ ',' :: '\n' :: lines) (v :: items) where
  count := by
    have count := more.count
    simp only [List.length_append, List.length_cons]
    omega
  clean := by
    have none : '\r' ∉ blank := fun member => absurd (idle _ member) (by decide)
    simp [none, spelt.clean, more.clean]
  read depth rounds before after rest deep few idle' idle'' := by
    simp only [List.length_append, List.length_cons] at deep few
    cases rounds with
    | zero => cases few
    | succ rounds =>
      have tail := more.read depth rounds ['\n'] after rest (by omega) (by omega)
        (by simp [Blank]) idle''
      have first := spelt.read depth (',' :: '\n' :: (lines ++ (after ++ ']' :: rest))) (by omega)
        (.inl rfl)
      obtain ⟨c, word, rfl, starts⟩ := spelt.exists_cons
      have bracket : c ≠ ']' := by
        rintro rfl
        cases starts
      rw [arrayItems]
      simp only [List.append_assoc, List.cons_append, skipLines_blank idle', skipLines_blank idle,
        skipLines_of_startsValue starts, require, bind, Except.bind] at first ⊢
      split
      · rename_i closing
        exact absurd (List.cons.inj closing).1 bracket
      · have comma (t : Text) : skipLines false (',' :: t) = some (',' :: t) := rfl
        rw [List.singleton_append] at tail
        simp only [first, comma, tail]

theorem hasSections_of_storable {v : Value} (storable : Storable v) :
    hasSections v = .ok false := by
  cases storable with
  | bool b => rfl
  | int short => rfl
  | text t => rfl
  | @array items all =>
    cases items with
    | nil => rfl
    | cons first items =>
      have plain : isTable first = false := by
        cases all first List.mem_cons_self <;> rfl
      simp [hasSections, plain]

/-- Items that can be written are, each on a line with a margin. -/
theorem spells_writeItems {depth : Nat} {items : List Value}
    (each : ∀ v ∈ items, ∃ text, writeValue depth v = .ok text ∧ Spells text v) :
    ∃ lines, writeItems depth items = .ok lines ∧ SpellsItems lines items := by
  induction items with
  | nil => exact ⟨[], by rw [writeItems], spellsItems_nil⟩
  | cons v items inductionHypothesis =>
    obtain ⟨text, written, spelt⟩ := each v List.mem_cons_self
    obtain ⟨lines, more, speltItems⟩ :=
      inductionHypothesis fun w member => each w (List.mem_cons_of_mem v member)
    refine ⟨margin depth ++ text ++ ',' :: '\n' :: lines, ?_,
      .cons (blank_margin depth) spelt speltItems⟩
    rw [writeItems, written, more]
    rfl

/-- The lines of items in brackets are an array. -/
theorem SpellsItems.spells {lines : Text} {items : List Value}
    (speltItems : SpellsItems lines items) {blank : Text} (idle : Blank blank) :
    Spells ('[' :: '\n' :: lines ++ blank ++ [']']) (.array items) where
  starts := rfl
  clean := by
    have none : '\r' ∉ blank := fun member => absurd (idle _ member) (by decide)
    simp [none, speltItems.clean]
  read depth rest deep stops := by
    simp only [List.cons_append, List.length_cons, List.length_append] at deep
    cases depth with
    | zero => cases deep
    | succ depth =>
      have count := speltItems.count
      have inner := speltItems.read depth
        (('\n' :: (lines ++ (blank ++ ']' :: rest))).length + 1) ['\n'] blank rest (by omega)
        (by simp only [List.length_cons, List.length_append]; omega) (by simp [Blank]) idle
      rw [List.singleton_append] at inner
      simp only [List.cons_append, List.append_assoc, List.nil_append, valueWithin, inner]
      rfl

/-- A value that can be stored is written in a form that is read back, at every
depth. -/
theorem Storable.spells_writeValue {v : Value} (storable : Storable v) (depth : Nat) :
    ∃ text, writeValue depth v = .ok text ∧ Spells text v := by
  induction storable generalizing depth with
  | bool b => exact ⟨_, by rw [writeValue], spells_bool b⟩
  | @int n short =>
    refine ⟨_, ?_, spells_int short⟩
    rw [writeValue, writeInt_eq_ok_iff]
    exact ⟨short, rfl⟩
  | text t => exact ⟨_, by rw [writeValue], spells_text t⟩
  | @array items all inductionHypothesis =>
    cases items with
    | nil =>
      refine ⟨['[', ']'], by rw [writeValue], rfl, by decide, ?_⟩
      intro depth rest deep stops
      cases depth with
      | zero => cases deep
      | succ depth => rfl
    | cons first items =>
      obtain ⟨lines, written, speltItems⟩ :=
        spells_writeItems fun v member => inductionHypothesis v member (depth + 1)
      refine ⟨'[' :: '\n' :: lines ++ margin depth ++ [']'], ?_,
        speltItems.spells (blank_margin depth)⟩
      rw [writeValue, written]
      rfl

end Emend.Document
