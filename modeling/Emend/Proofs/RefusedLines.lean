import Emend.Proofs.LineIndex

/-!
# Lines that are refused

Three accessors take a line: where it starts, where it ends and what it holds. The start
and the text are refused for exactly the lines that a source does not have, and for the
lines that it has all three answer: the start comes at or before the end, and the end
within the text. A refusal that shows its line is one for the digits of the line if there
are too many of them.

The end is read off the next entry of the line table before the line itself is looked at,
and a negative place counts from the end of the table. So the end of a negative line is
answered as long as that place is in the table, for one line more than the source has. Such
an end lies one before the start of some line, and before the whole text if that is the
first line.
-/

namespace Emend.Source

/-- An answer that refuses a line or a place of the line table. -/
def Refused {α : Type} (answer : Except Fault α) : Prop :=
  ∃ fault, answer = .error fault ∧ fault.kind = "IndexError"

theorem not_refused {α : Type} (value : α) : ¬ Refused (.ok value : Except Fault α) := by
  rintro ⟨fault, impossible, -⟩
  cases impossible

/-- A line that a source does not have. -/
def Lacks (s : Source) (line : Int) : Prop := line < 0 ∨ s.lineCount ≤ line

variable {s : Source} {line place : Int}

/-- The lines that a source has are the natural numbers below their number. -/
theorem lacks_or_present (s : Source) (line : Int) :
    s.Lacks line ∨ ∃ n : Nat, line = n ∧ n < s.lineCount := by
  rw [Lacks]
  by_cases has : 0 ≤ line ∧ line < s.lineCount
  · exact .inr ⟨line.toNat, by omega, by omega⟩
  · exact .inl (by omega)

theorem not_lacks_natCast {n : Nat} (present : n < s.lineCount) : ¬ s.Lacks n := by
  rw [Lacks]
  omega

/-- An answer that is refused for the digits of the line that it would show. -/
def Unwritten {α : Type} (answer : Except Fault α) : Prop := answer = .error .tooLongNumber

theorem lineStart_of_lacks (lacks : s.Lacks line) :
    s.lineStart line = .error (.showing [line] (.lineOutOfRange line s.url)) := if_pos lacks

/-- The text asks for the start first, so it is refused together with it. -/
theorem lineText_of_lacks (lacks : s.Lacks line) :
    s.lineText line = .error (.showing [line] (.lineOutOfRange line s.url)) := by
  rw [lineText, lineStart_of_lacks lacks]
  rfl

/-- A refusal that shows the line refuses it as such if the line can be written. -/
theorem refused_showing_iff {α : Type} {answer : Except Fault α}
    (refused : answer = .error (.showing [line] (.lineOutOfRange line s.url))) :
    (Refused answer ↔ Text.isWritable line = true) ∧
      (Unwritten answer ↔ Text.isWritable line = false) := by
  rw [refused, Refused, Unwritten, Fault.showing_single]
  cases Text.isWritable line <;> simp [Fault.kind]

theorem lineStart_refused_iff :
    (Refused (s.lineStart line) ↔ s.Lacks line ∧ Text.isWritable line = true) ∧
      (Unwritten (s.lineStart line) ↔ s.Lacks line ∧ Text.isWritable line = false) := by
  rcases s.lacks_or_present line with lacks | ⟨n, rfl, present⟩
  · simpa [lacks] using refused_showing_iff (lineStart_of_lacks lacks)
  · rw [s.lineStart_natCast present]
    simp [not_refused, Unwritten, not_lacks_natCast present]

theorem lineText_refused_iff :
    (Refused (s.lineText line) ↔ s.Lacks line ∧ Text.isWritable line = true) ∧
      (Unwritten (s.lineText line) ↔ s.Lacks line ∧ Text.isWritable line = false) := by
  rcases s.lacks_or_present line with lacks | ⟨n, rfl, present⟩
  · simpa [lacks] using refused_showing_iff (lineText_of_lacks lacks)
  · rw [s.lineText_natCast present]
    simp [not_refused, Unwritten, not_lacks_natCast present]

/-- A place in the table, counted from its start or from its end. -/
theorem tableEntry_eq (low : -(s.lineCount : Int) ≤ place) (high : place < s.lineCount) :
    s.tableEntry place = .ok (s.startAt (place % s.lineCount).toNat) := by
  have counted : (if place < 0 then place + s.lineCount else place) = place % s.lineCount := by
    split
    · rw [← Int.add_emod_right, Int.emod_eq_of_lt (by omega) (by omega)]
    · rw [Int.emod_eq_of_lt (by omega) high]
  have natural : 0 ≤ place % s.lineCount := Int.emod_nonneg _ (by omega)
  have inside : (place % s.lineCount).toNat < s.lineStarts.length := by
    have below := Int.emod_lt_of_pos place (show (0 : Int) < s.lineCount by omega)
    rw [← lineCount]
    omega
  rw [tableEntry, counted, if_neg (by omega), List.getElem?_eq_getElem inside]
  simp only [startAt, List.getD_eq_getElem?_getD, List.getElem?_eq_getElem inside,
    Option.getD_some]

/-- A place before the table. -/
theorem tableEntry_of_lt (low : place < -(s.lineCount : Int)) :
    s.tableEntry place = .error .beyondLineTable := by
  rw [tableEntry, if_pos (show place < 0 by omega), if_pos (by omega)]

theorem lineCount_pos (s : Source) : 0 < s.lineCount := Nat.zero_lt_succ _

/-- A negative line ends one before the start that the place after it stands for. -/
theorem lineEnd_of_negative (low : -(s.lineCount : Int) - 1 ≤ line) (negative : line < 0) :
    s.lineEnd line = .ok ((s.startAt ((line + 1) % s.lineCount).toNat : Int) - 1) := by
  have positive := s.lineCount_pos
  rw [lineEnd, if_pos (by omega), tableEntry_eq (by omega) (by omega)]
  rfl

/-- The end is refused for lines after the last, and for negative ones only where the table
has no place for them; these are not shown. -/
theorem lineEnd_refused_iff :
    (Refused (s.lineEnd line) ↔
        line < -(s.lineCount : Int) - 1 ∨ (s.lineCount ≤ line ∧ Text.isWritable line = true)) ∧
      (Unwritten (s.lineEnd line) ↔ s.lineCount ≤ line ∧ Text.isWritable line = false) := by
  have positive := s.lineCount_pos
  rcases s.lacks_or_present line with (negative | beyond) | ⟨n, rfl, present⟩
  · have inside : ¬ (s.lineCount : Int) ≤ line := by omega
    by_cases low : -(s.lineCount : Int) - 1 ≤ line
    · rw [lineEnd_of_negative low negative]
      simp [not_refused, Unwritten, inside, low]
    · have refused : s.lineEnd line = .error .beyondLineTable := by
        rw [lineEnd, if_pos (by omega), tableEntry_of_lt (by omega)]
        rfl
      rw [refused]
      simp [Refused, Unwritten, Fault.kind, inside, Int.not_le.mp low]
  · have refused : s.lineEnd line = .error (.showing [line] (.lineOutOfRange line s.url)) := by
      rw [lineEnd, if_neg (by omega), lineStart_of_lacks (.inr beyond)]
      rfl
    have low : ¬ line < -(s.lineCount : Int) - 1 := by omega
    simpa [beyond, low] using refused_showing_iff refused
  · have inside : ¬ (s.lineCount : Int) ≤ n := by omega
    have low : ¬ (n : Int) < -(s.lineCount : Int) - 1 := by omega
    rw [s.lineEnd_natCast present]
    simp [not_refused, Unwritten, inside, low]

/-- Which lines the accessors refuse. The start and the text refuse exactly the lines that
the source does not have; the end answers some negative ones too, each with the place before
the start of a line. A refusal that would show a line with too many digits is one for the
digits instead; the end shows no negative line. A line that has a start has an end and a
text, and they come in order within the text of the source. -/
theorem line_refusals_exact (s : Source) (line : Int) :
    let short := line.natAbs < Nat.pow 10 Text.maxDigits
    (Refused (s.lineStart line) ↔ (line < 0 ∨ s.lineCount ≤ line) ∧ short) ∧
      (Unwritten (s.lineStart line) ↔ (line < 0 ∨ s.lineCount ≤ line) ∧ ¬ short) ∧
      (Refused (s.lineText line) ↔ (line < 0 ∨ s.lineCount ≤ line) ∧ short) ∧
      (Unwritten (s.lineText line) ↔ (line < 0 ∨ s.lineCount ≤ line) ∧ ¬ short) ∧
      (Refused (s.lineEnd line) ↔
        line < -(s.lineCount : Int) - 1 ∨ (s.lineCount ≤ line ∧ short)) ∧
      (Unwritten (s.lineEnd line) ↔ s.lineCount ≤ line ∧ ¬ short) ∧
      (-(s.lineCount : Int) - 1 ≤ line → line < 0 →
        s.lineEnd line = .ok ((s.startAt ((line + 1) % s.lineCount).toNat : Int) - 1)) ∧
      ∀ start : Nat, s.lineStart line = .ok start → ∃ stop : Nat, ∃ t : Text,
        s.lineEnd line = .ok (stop : Int) ∧ s.lineText line = .ok t ∧
          start ≤ stop ∧ stop ≤ s.length := by
  intro short
  have digits : Text.isWritable line = true ↔ short := Text.isWritable_iff line
  have tooMany : Text.isWritable line = false ↔ ¬ short := by
    rw [← digits, Bool.not_eq_true]
  rw [← tooMany, ← digits]
  refine ⟨lineStart_refused_iff.1, lineStart_refused_iff.2, lineText_refused_iff.1,
    lineText_refused_iff.2, lineEnd_refused_iff.1, lineEnd_refused_iff.2, lineEnd_of_negative, ?_⟩
  intro start starts
  rcases s.lacks_or_present line with lacks | ⟨n, rfl, present⟩
  · rw [lineStart_of_lacks lacks] at starts
    cases starts
  · rw [s.lineStart_natCast present] at starts
    cases starts
    exact ⟨_, _, s.lineEnd_natCast present, s.lineText_natCast present,
      s.startAt_le_endAt present, s.endAt_le_length n⟩

/-- The second line before the first one has no start, but it ends where the empty line in
the middle ends; and that one has a start, an end and a text. -/
theorem gapped_line_refusals_exact :
    (-(gapped.lineCount : Int) - 1 ≤ -2 ∧ (-2 : Int) < 0 ∧ gapped.lineStart 1 = .ok 2) ∧
      gapped.lineEnd (-2) = .ok 2 ∧ ∃ stop : Nat, ∃ t : Text,
        gapped.lineEnd 1 = .ok (stop : Int) ∧ gapped.lineText 1 = .ok t ∧
          2 ≤ stop ∧ stop ≤ gapped.length := by
  have low : -(gapped.lineCount : Int) - 1 ≤ -2 := by decide
  have starts : gapped.lineStart 1 = .ok 2 := rfl
  obtain ⟨-, -, -, -, -, -, ends, -⟩ := gapped.line_refusals_exact (-2)
  obtain ⟨-, -, -, -, -, -, -, orders⟩ := gapped.line_refusals_exact 1
  exact ⟨⟨low, by decide, starts⟩, ends low (by decide), orders 2 starts⟩

/-- A source has no line before its first one, and still that line has an end, which lies
before the text. -/
theorem line_before_first_ends :
    ¬ (Refused (gapped.lineEnd (-1)) ↔ (-1 : Int) < 0 ∨ gapped.lineCount ≤ (-1 : Int)) ∧
      Refused (gapped.lineStart (-1)) ∧ Refused (gapped.lineText (-1)) ∧
      gapped.lineEnd (-1) = .ok (-1) := by
  have ends : gapped.lineEnd (-1) = .ok (-1) := rfl
  refine ⟨?_, ⟨_, rfl, rfl⟩, ⟨_, rfl, rfl⟩, ends⟩
  intro alike
  have refused := alike.mpr (.inl (by decide))
  rw [ends] at refused
  exact not_refused _ refused

end Emend.Source
