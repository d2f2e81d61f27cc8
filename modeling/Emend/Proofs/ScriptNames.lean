import Emend.Proofs.Exports

/-!
# Names in scripts

A name in a script may hold a dollar sign, which is no word character. So an edge
of a word is not always where a name ends: there is one inside of a name next to a
dollar sign, and there is none after a name that ends in one.
-/

namespace Emend

/-- The characters of a name: ASCII letters and digits, the underscore and the dollar sign. -/
def isNameChar (c : Char) : Bool :=
  Text.isAsciiLetter c || Text.isAsciiDigit c || c = '_' || c = '$'

/-- Characters of names only. -/
def Text.AllName (u : Text) : Prop := ∀ c ∈ u, isNameChar c = true

instance (u : Text) : Decidable u.AllName := List.decidableBAll _ u

/-- A name in a script; it does not start with a digit. -/
structure ScriptName where
  text : Text
  filled : text ≠ []
  lettered : text.AllName
  undigited : text.head?.any Text.isAsciiDigit = false
deriving DecidableEq

theorem toNat_lt_of_isNameChar {c : Char} (named : isNameChar c = true) : c.toNat < 128 := by
  simp only [isNameChar, Text.isAsciiLetter, Text.isAsciiDigit, Bool.or_eq_true, Bool.and_eq_true,
    decide_eq_true_eq, Char.le_def, UInt32.le_iff_toNat_le] at named
  rcases named with ((((⟨_, above⟩ | ⟨_, above⟩) | ⟨_, above⟩) | rfl) | rfl)
  all_goals first | decide | exact Nat.lt_of_le_of_lt above (by decide)

/-- A character of a name is not blank, and it is a word character but for the dollar sign. -/
theorem isNameChar_kinds {c : Char} (named : isNameChar c = true) :
    Text.isBlank c = false ∧ Text.isWord c = (c != '$') := by
  have table : ∀ n < 128, isNameChar (Char.ofNat n) = true →
      Text.isBlank (Char.ofNat n) = false ∧
        Text.isWord (Char.ofNat n) = (Char.ofNat n != '$') := by
    decide +kernel
  have basic := toNat_lt_of_isNameChar named
  rw [← Char.ofNat_toNat c] at named ⊢
  exact table c.toNat basic named

/-- No white space. -/
def Text.Solid (u : Text) : Prop := ∀ c ∈ u, ¬ isBlank c = true

instance (u : Text) : Decidable u.Solid := List.decidableBAll _ u

theorem not_isBlank_of_isNameChar {c : Char} (named : isNameChar c = true) :
    ¬ Text.isBlank c = true := by
  rw [(isNameChar_kinds named).1]
  exact Bool.false_ne_true

theorem solid_of_isNameChar {u : Text} (named : u.AllName) : u.Solid :=
  fun c member => not_isBlank_of_isNameChar (named c member)

theorem allBlank_space : Text.AllBlank [' '] := by decide +kernel

theorem isBlank_space : Text.isBlank ' ' = true := allBlank_space ' ' List.mem_cons_self

/-- Braces and semicolons are not blank. -/
theorem solid_marks : Text.Solid ['\x7b', '\x7d', ';'] := by decide +kernel

/-- Neither blanks nor braces nor semicolons nor dollar signs are word characters. -/
theorem isWord_marks : ∀ c ∈ [' ', '\x7b', '\x7d', ';', '$'], ¬ Text.isWord c = true := by
  rw [← List.any_eq_false]
  decide +kernel

namespace ScriptName

variable {x old : ScriptName} {c : Char} {rest tail : Text}

theorem not_mem (x : ScriptName) (other : isNameChar c = false) : c ∉ x.text := by
  intro member
  rw [x.lettered c member] at other
  cases other

/-- A name starts with a character that is not blank. -/
theorem exists_cons (x : ScriptName) :
    ∃ c rest, x.text = c :: rest ∧ isNameChar c = true ∧ ¬ Text.isBlank c = true := by
  obtain ⟨c, rest, split⟩ := List.exists_cons_of_ne_nil x.filled
  have named := x.lettered c (by rw [split]; exact List.mem_cons_self)
  exact ⟨c, rest, split, named, not_isBlank_of_isNameChar named⟩

/-- White space before two names has one length. -/
theorem gap_unique {gap other : Text} (blank : gap.AllBlank) (white : other.AllBlank)
    (same : gap ++ (x.text ++ rest) = other ++ (old.text ++ tail)) :
    gap = other ∧ x.text ++ rest = old.text ++ tail := by
  obtain ⟨c, first, split, -, solid⟩ := x.exists_cons
  obtain ⟨d, second, divided, -, firm⟩ := old.exists_cons
  rw [split, divided, List.cons_append, List.cons_append] at same ⊢
  obtain ⟨gaps, heads, further⟩ := Text.stretch_unique blank white solid firm same
  exact ⟨gaps, by rw [heads, further]⟩

/-- A name that is read where another one stands is a part of it. -/
theorem append_eq_iff (other : isNameChar c = false) :
    x.text ++ c :: tail = old.text ++ rest ↔
      ∃ y, x.text = old.text ++ y ∧ rest = y ++ c :: tail := by
  constructor
  · intro same
    rcases List.append_eq_append_iff.mp same with ⟨z, longer, follows⟩ | ⟨z, longer, follows⟩
    · cases z with
      | nil =>
        rw [List.append_nil] at longer
        exact ⟨[], by rw [longer, List.append_nil], follows.symm⟩
      | cons d z =>
        obtain ⟨rfl, -⟩ := List.cons.inj follows
        refine absurd ?_ (old.not_mem other)
        rw [longer]
        exact List.mem_append_right _ List.mem_cons_self
    · exact ⟨z, longer, follows⟩
  · rintro ⟨y, longer, rfl⟩
    rw [longer, List.append_assoc]

/-- The edge after a name depends on the name and on what follows. -/
theorem edgeBetween_append (front : Text) :
    (front ++ old.text).EdgeBetween rest ↔ old.text.EdgeBetween rest := by
  rw [Text.EdgeBetween, Text.EdgeBetween, List.getLast?_append,
    List.getLast?_eq_some_getLast old.filled, Option.some_or]

/-- The word characters of a name are all but the dollar sign. -/
theorem allWord_iff (x : ScriptName) : x.text.AllWord ↔ '$' ∉ x.text := by
  constructor
  · intro letters member
    exact isWord_marks '$' (by decide) (letters '$' member)
  · intro absent c member
    rw [(isNameChar_kinds (x.lettered c member)).2, bne_iff_ne]
    rintro rfl
    exact absent member

theorem eq_of_text_eq {x old : ScriptName} (same : x.text = old.text) : x = old := by
  cases x
  cases old
  simpa using same

end ScriptName

/-- An edge of a word inside or at the end of a longer name: next to a dollar sign in the one case,
not next to one in the other. -/
def EdgeWithin (name rest : Text) : Prop :=
  name.getLast? = some '$' ↔ rest ≠ [] ∧ rest.head? ≠ some '$'

instance (name rest : Text) : Decidable (EdgeWithin name rest) :=
  inferInstanceAs (Decidable (_ ↔ _))

theorem ScriptName.edgeBetween_iff {x old : ScriptName} {y tail : Text} {c : Char}
    (longer : x.text = old.text ++ y) (other : ¬ Text.isWord c = true) :
    old.text.EdgeBetween (y ++ c :: tail) ↔ EdgeWithin old.text y := by
  have ending := old.lettered _ (List.getLast_mem old.filled)
  rw [Text.EdgeBetween, EdgeWithin, List.getLast?_eq_some_getLast old.filled, Option.any_some,
    (isNameChar_kinds ending).2]
  cases y with
  | nil => simp [other]
  | cons d y =>
    have named : isNameChar d = true := x.lettered d (by rw [longer]; simp)
    rw [List.cons_append, List.head?_cons, Option.any_some, (isNameChar_kinds named).2]
    by_cases last : old.text.getLast old.filled = '$' <;> by_cases next : d = '$' <;>
      simp [bne, last, next]

end Emend
