import Emend.Proofs.Positions

/-!
# The line index

The table of line starts cuts a text where a plain reading cuts it. The pieces between
one start and the next are the text split at its newlines; the line of an offset is the
number of newlines before it, and its column is counted from one past the last of them.

Offsets and positions correspond one to one. Every offset up to the end of the text has
a line and a column that lead back to it, and later offsets have later positions. Of all
other pairs the line is refused if there is no such line, and otherwise the column. A refusal
shows a number, though, and if that has too many digits it is all that is refused.
-/

namespace Emend

namespace Text

variable {t : Text} {c : Char} {start stop : Nat}

theorem slice_eq_cons (here : t[start]? = some c) (some : start < stop) :
    t.slice start stop = c :: t.slice (start + 1) stop := by
  obtain ⟨inside, same⟩ := List.getElem?_eq_some_iff.mp here
  have left : stop - start = (stop - (start + 1)) + 1 := by omega
  rw [slice, slice, List.drop_eq_getElem_cons inside, left, List.take_succ_cons, same]

theorem slice_self (t : Text) (start : Nat) : t.slice start start = [] := by
  rw [slice, Nat.sub_self, List.take_zero]

theorem length_slice (inside : stop ≤ t.length) : (t.slice start stop).length = stop - start := by
  rw [slice, List.length_take, List.length_drop]
  omega

end Text

namespace Source

/-- A line that is not the first starts right after a newline. -/
theorem newline_of_mem_startsAfter {offset start : Nat} {t : Text}
    (member : start ∈ startsAfter offset t) :
    ∃ o, start = offset + o + 1 ∧ t[o]? = some '\n' := by
  induction t generalizing offset with
  | nil => cases member
  | cons c rest inductionHypothesis =>
    have later (member : start ∈ startsAfter (offset + 1) rest) :
        ∃ o, start = offset + o + 1 ∧ (c :: rest)[o]? = some '\n' := by
      obtain ⟨o, place, here⟩ := inductionHypothesis member
      exact ⟨o + 1, by omega, by simpa using here⟩
    rw [startsAfter] at member
    split at member
    · rename_i newline
      rcases List.mem_cons.mp member with first | member
      · exact ⟨0, first, by simp [newline]⟩
      · exact later member
    · exact later member

/-- The pieces of a text from one start on. Each ends before the newline in front of the
next start, and the last one ends with the text. -/
def pieces (t : Text) (start : Nat) : List Nat → List Text
  | [] => [t.slice start t.length]
  | next :: later => t.slice start (next - 1) :: pieces t next later

/-- A character that comes before all further starts belongs to the first piece. -/
theorem pieces_eq_modifyHead {t : Text} {c : Char} {start : Nat} {later : List Nat}
    (here : t[start]? = some c) (beyond : ∀ next ∈ later, start + 1 < next) :
    pieces t start later = (pieces t (start + 1) later).modifyHead (List.cons c) := by
  obtain ⟨inside, _⟩ := List.getElem?_eq_some_iff.mp here
  cases later with
  | nil => simp [pieces, Text.slice_eq_cons here inside]
  | cons next later =>
    have after := beyond next List.mem_cons_self
    simp [pieces, Text.slice_eq_cons here (show start < next - 1 by omega)]

/-- The starts of a text cut it at its newlines. The induction is on what is left of the
text; a newline closes a piece, and any other character goes to the front of the first
piece of the rest. -/
theorem pieces_startsAfter (passed t : Text) :
    pieces (passed ++ t) passed.length (startsAfter passed.length t) = t.splitOn '\n' := by
  induction t generalizing passed with
  | nil => simp [startsAfter, pieces, Text.slice_self]
  | cons c rest inductionHypothesis =>
    have further := inductionHypothesis (passed ++ [c])
    rw [List.append_assoc, List.singleton_append, List.length_append, List.length_singleton]
      at further
    rw [startsAfter, List.splitOn, List.splitOnP_cons_eq_if_modifyHead, ← List.splitOn]
    by_cases newline : c = '\n'
    · simp only [newline, if_true, beq_self_eq_true] at further ⊢
      rw [pieces, Nat.add_sub_cancel, Text.slice_self, further]
    · have here : (passed ++ c :: rest)[passed.length]? = some c := by simp
      simp only [newline, if_false, beq_iff_eq]
      rw [pieces_eq_modifyHead here fun _ => lt_of_mem_startsAfter, further]

/-- Reading a table of starts place by place gives its pieces. -/
theorem map_range_eq_pieces (t : Text) (first : Nat) (later : List Nat) :
    ((List.range (later.length + 1)).map fun n =>
      t.slice ((first :: later).getD n 0)
        (if n < later.length then later.getD n 0 - 1 else t.length)) = pieces t first later := by
  induction later generalizing first with
  | nil => simp [pieces]
  | cons next later inductionHypothesis =>
    rw [List.range_succ_eq_map, List.map_cons, List.map_map, pieces, ← inductionHypothesis next]
    simp [Function.comp_def]

variable (s : Source)

/-- A line that exists starts at or before its end. -/
theorem startAt_le_endAt {line : Nat} (present : line < s.lineCount) :
    s.startAt line ≤ s.endAt line := by
  rw [endAt]
  split
  · rename_i next
    have increasing := List.pairwise_iff_getElem.mp s.lineStarts_increasing line (line + 1)
      present next (Nat.lt_succ_self line)
    simp only [startAt, List.getD_eq_getElem?_getD]
    rw [List.getElem?_eq_getElem present, List.getElem?_eq_getElem next]
    simp only [Option.getD_some]
    omega
  · cases line with
    | zero => exact Nat.zero_le _
    | succ line =>
      have bounded := le_of_mem_startsAfter (s.startAt_next_mem present)
      rw [Nat.zero_add] at bounded
      exact bounded

theorem lineText_natCast {line : Nat} (present : line < s.lineCount) :
    s.lineText line = .ok (s.text.slice (s.startAt line) (s.endAt line)) := by
  rw [lineText, lineStart_natCast s present, lineEnd_natCast s present]
  rfl

/-- The lines of the index, in order, are the text split at its newlines. -/
theorem map_lineText :
    ((List.range s.lineCount).map fun line : Nat => s.lineText line) =
      (s.text.splitOn '\n').map .ok := by
  have cut := pieces_startsAfter [] s.text
  rw [List.nil_append, List.length_nil, ← map_range_eq_pieces] at cut
  rw [← cut, List.map_map]
  apply List.map_congr_left
  intro line member
  rw [s.lineText_natCast (List.mem_range.mp member)]
  simp [startAt, endAt, lineCount, lineStarts, length]

/-- An offset is one past the last newline before another, or it is zero and there is no
such newline. -/
structure BeginsLine (t : Text) (o start : Nat) : Prop where
  before : start ≤ o
  first : start = 0 ∨ ∃ k, start = k + 1 ∧ t[k]? = some '\n'
  last : ∀ k, start ≤ k → k < o → t[k]? ≠ some '\n'

/-- The line of an offset starts one past the last newline before the offset. A newline
in between would start another line. -/
theorem beginsLine_startAt {o : Nat} (inside : o ≤ s.length) :
    BeginsLine s.text o (s.startAt (s.lineAt o)) where
  before := s.startAt_lineAt_le inside
  first := by
    cases line : s.lineAt o with
    | zero => exact .inl rfl
    | succ line =>
      have present := s.lineAt_lt_lineCount o
      obtain ⟨k, place, newline⟩ :=
        newline_of_mem_startsAfter (s.startAt_next_mem (line ▸ present))
      exact .inr ⟨k, by omega, newline⟩
  last := by
    intro k after before newline
    have present := s.lineAt_lt_lineCount o
    have ends := s.le_endAt_lineAt inside
    have here := s.lineAt_eq_of_between present after (by omega)
    have next := s.lineAt_eq_of_between (o := k + 1) present (by omega) (by omega)
    have started := (s.place_after_newline newline).1
    omega

theorem checked_natCast {o : Nat} (inside : o ≤ s.length) : s.checked o = .ok o := by
  rw [checked, if_neg (by omega)]
  rfl

/-- The line index agrees with the plain reading of the text: its starts increase, its
lines are the text split at newlines, the line of an offset is the number of newlines
before it, and the column is the distance to the character after the last of them. -/
theorem line_index_exact :
    s.lineStarts.Pairwise (· < ·) ∧
      ((List.range s.lineCount).map fun line : Nat => s.lineText line) =
        (s.text.splitOn '\n').map .ok ∧
      ['\n'].intercalate (s.text.splitOn '\n') = s.text ∧
      ∀ o : Nat, o ≤ s.length →
        s.lineOf o = .ok ((s.text.take o).count '\n') ∧
        ∃ start, s.columnOf o = .ok (o - start) ∧ BeginsLine s.text o start := by
  refine ⟨s.lineStarts_increasing, s.map_lineText, List.intercalate_splitOn '\n', ?_⟩
  intro o inside
  constructor
  · rw [lineOf, s.checked_natCast inside, ← s.lineAt_eq_count]
    rfl
  · refine ⟨s.startAt (s.lineAt o), ?_, s.beginsLine_startAt inside⟩
    rw [columnOf, s.checked_natCast inside]
    rfl

/-- A source with an empty line in the middle and none at its end. -/
def gapped : Source := { text := ['a', '\n', '\n', 'b', 'c'] }

/-- The last offset is two past the second newline. -/
theorem gapped_line_index_exact :
    5 ≤ gapped.length ∧ gapped.lineOf 5 = .ok 2 ∧
      ∃ start, gapped.columnOf 5 = .ok (5 - start) ∧ BeginsLine gapped.text 5 start := by
  have last : 5 ≤ gapped.length := by decide
  have exact := gapped.line_index_exact.2.2.2 5 last
  exact ⟨last, exact.1, exact.2⟩

theorem location_natCast {o : Nat} (inside : o ≤ s.length) :
    s.location o = .ok (s.lineAt o, s.columnAt o) := by
  rw [location, s.checked_natCast inside]
  rfl

/-- A later offset is on the same line or on a later one. -/
theorem lineAt_mono {o later : Nat} (before : o ≤ later) : s.lineAt o ≤ s.lineAt later := by
  rw [lineAt_eq_count, lineAt_eq_count]
  exact (List.take_sublist_take_left before).count_le _

/-- A later offset is on a later line, or on the same line in a later column. -/
theorem position_increases {o later : Nat} (before : o < later) (inside : later ≤ s.length) :
    Prod.Lex (· < ·) (· < ·) (s.lineAt o, s.columnAt o) (s.lineAt later, s.columnAt later) := by
  have lines := s.lineAt_mono (Nat.le_of_lt before)
  have starts := s.startAt_lineAt_le (Nat.le_trans (Nat.le_of_lt before) inside)
  by_cases same : s.lineAt o = s.lineAt later
  · rw [columnAt, columnAt, ← same]
    apply Prod.Lex.right
    omega
  · apply Prod.Lex.left
    omega

/-- What becomes of a line and a column: the line does not exist, or it exists and the
column lies outside of it, or they lead to an offset. -/
theorem offsetOf_cases (line column : Int) :
    (¬ (0 ≤ line ∧ line < s.lineCount) ∧
        s.offsetOf line column = .error (.showing [line] (.lineOutOfRange line s.url))) ∨
      (0 ≤ line ∧ line < s.lineCount) ∧ ∃ (start : Nat) (t : Text),
        s.lineStart line = .ok start ∧ s.lineText line = .ok t ∧
        ((¬ (0 ≤ column ∧ column ≤ t.length) ∧
            s.offsetOf line column = .error (.showing [(start : Int) + column]
              (.invalidRange (start + column) (start + column) s.length))) ∨
          (0 ≤ column ∧ column ≤ t.length) ∧ ∃ o, s.offsetOf line column = .ok o) := by
  by_cases exist : 0 ≤ line ∧ line < s.lineCount
  · obtain ⟨line, rfl⟩ := Int.eq_ofNat_of_zero_le exist.1
    have present : line < s.lineCount := Int.ofNat_lt.mp exist.2
    have ordered := s.startAt_le_endAt present
    refine .inr ⟨exist, _, _, s.lineStart_natCast present, s.lineText_natCast present, ?_⟩
    rw [Text.length_slice (s.endAt_le_length line), s.offsetOf_natCast present]
    by_cases fits : column < 0 ∨ (s.endAt line : Int) < s.startAt line + column
    · rw [if_pos fits]
      exact .inl ⟨by omega, rfl⟩
    · rw [if_neg fits]
      exact .inr ⟨by omega, _, rfl⟩
  · refine .inl ⟨exist, ?_⟩
    rw [offsetOf, lineStart, if_pos (by omega)]
    rfl

/-- A line and a column are refused under a class. -/
def RefusesPosition (line column : Int) (kind : String) : Prop :=
  ∃ fault, s.offsetOf line column = .error fault ∧ fault.kind = kind

theorem refusesPosition_iff {line column n : Int} {fault : Fault} {kind : String}
    (refused : s.offsetOf line column = .error (.showing [n] fault)) :
    s.RefusesPosition line column kind ↔
      (Text.isWritable n = true ∧ fault.kind = kind) ∨
        Text.isWritable n = false ∧ "ValueError" = kind := by
  rw [RefusesPosition, refused, Fault.showing_single]
  cases Text.isWritable n <;> simp [Fault.kind]

theorem not_refusesPosition {line column : Int} {o : Nat} (found : s.offsetOf line column = .ok o)
    (kind : String) : ¬ s.RefusesPosition line column kind := by
  rintro ⟨fault, refused, -⟩
  cases found.symm.trans refused

/-- Offsets and positions correspond one to one, and what is no position is refused.

An offset has a position that leads back to it; a pair leads to an offset exactly if its
line exists and its column is at most the length of the line, and that offset has the pair
as its position; and positions increase with their offsets. A line that does not exist and a
column outside of its line are refused each under a class of its own as long as the number
that the refusal shows can be written: the line, or the offset to which the column would
lead. Otherwise both are refused for that number. -/
theorem positions_one_to_one :
    (∀ o : Nat, o ≤ s.length → ∃ line column : Nat,
        s.location o = .ok (line, column) ∧ s.offsetOf line column = .ok o) ∧
      (∀ line column : Int,
        ((∃ o, s.offsetOf line column = .ok o) ↔ (0 ≤ line ∧ line < s.lineCount) ∧
          ∃ t, s.lineText line = .ok t ∧ (0 ≤ column ∧ column ≤ t.length)) ∧
        (s.RefusesPosition line column "IndexError" ↔
          ¬ (0 ≤ line ∧ line < s.lineCount) ∧ line.natAbs < Nat.pow 10 Text.maxDigits) ∧
        (s.RefusesPosition line column "InvalidRange" ↔
          ∃ start t, s.lineStart line = .ok start ∧ s.lineText line = .ok t ∧
            ¬ (0 ≤ column ∧ column ≤ t.length) ∧
            ((start : Int) + column).natAbs < Nat.pow 10 Text.maxDigits) ∧
        (s.RefusesPosition line column "ValueError" ↔
          (¬ (0 ≤ line ∧ line < s.lineCount) ∧ Nat.pow 10 Text.maxDigits ≤ line.natAbs) ∨
            ∃ start t, s.lineStart line = .ok start ∧ s.lineText line = .ok t ∧
              ¬ (0 ≤ column ∧ column ≤ t.length) ∧
              Nat.pow 10 Text.maxDigits ≤ ((start : Int) + column).natAbs) ∧
        ∀ o, s.offsetOf line column = .ok o →
          ∃ l c : Nat, s.location o = .ok (l, c) ∧ line = l ∧ column = c) ∧
      ∀ o later : Nat, o < later → later ≤ s.length → ∃ p q,
        s.location o = .ok p ∧ s.location later = .ok q ∧ Prod.Lex (· < ·) (· < ·) p q := by
  refine ⟨?_, ?_, ?_⟩
  · intro o inside
    exact ⟨_, _, s.location_natCast inside, s.offsetOf_eq_ok_iff.mpr ⟨inside, rfl, rfl⟩⟩
  · intro line column
    have back (o : Nat) (found : s.offsetOf line column = .ok o) :
        ∃ l c : Nat, s.location o = .ok (l, c) ∧ line = l ∧ column = c := by
      obtain ⟨inside, sameLine, sameColumn⟩ := s.offsetOf_eq_ok_iff.mp found
      exact ⟨_, _, s.location_natCast inside, sameLine, sameColumn⟩
    simp only [← Text.isWritable_iff, ← Text.isWritable_eq_false_iff]
    rcases s.offsetOf_cases line column with
      ⟨absent, refused⟩ | ⟨exist, start, t, starts, text, ⟨outside, refused⟩ | ⟨fits, o, found⟩⟩
    · have noStart : ∀ start, s.lineStart line ≠ .ok start := by
        intro start starts
        rw [lineStart, if_pos (by omega)] at starts
        cases starts
      simp only [s.refusesPosition_iff refused, Fault.kind]
      exact ⟨by simp [refused, absent], by simp [absent], by simp [noStart],
        by simp [absent, noStart], back⟩
    · simp only [s.refusesPosition_iff refused, Fault.kind]
      exact ⟨by simp [refused, text, outside], by simp [exist],
        by simpa [starts, text] using fun _ => outside,
        by simpa [exist, starts, text] using fun _ => outside, back⟩
    · have within : ¬ (t.length : Int) < column := Int.not_lt.mpr fits.2
      simp only [s.not_refusesPosition found, false_iff]
      exact ⟨by simp [found, exist, text, fits], by simp [exist], by simp [text, fits, within],
        by simp [exist, text, fits, within], back⟩
  · intro o later before inside
    exact ⟨_, _, s.location_natCast (Nat.le_trans (Nat.le_of_lt before) inside),
      s.location_natCast inside, s.position_increases before inside⟩

/-- The end of the empty line and the start of the next one are different positions,
although only a newline lies between them. -/
theorem gapped_positions_one_to_one :
    2 < 3 ∧ 3 ≤ gapped.length ∧ gapped.offsetOf 1 0 = .ok 2 ∧
      ∃ p q, gapped.location 2 = .ok p ∧ gapped.location 3 = .ok q ∧
        Prod.Lex (· < ·) (· < ·) p q := by
  have inside : 3 ≤ gapped.length := by decide
  have found : gapped.offsetOf 1 0 = .ok 2 := rfl
  exact ⟨by decide, inside, found, gapped.positions_one_to_one.2.2 2 3 (by decide) inside⟩

/-- A column outside of a line that exists is refused for the digits of the offset, and not under
the class for columns. -/
theorem distant_column_refused :
    (0 ≤ 1 ∧ 1 < gapped.lineCount) ∧
      ¬ gapped.RefusesPosition 1 ((Nat.pow 10 Text.maxDigits : Nat) - 1) "InvalidRange" ∧
      gapped.RefusesPosition 1 ((Nat.pow 10 Text.maxDigits : Nat) - 1) "ValueError" := by
  have present : 1 < gapped.lineCount := by decide
  refine ⟨⟨by decide, present⟩, ?_⟩
  have starts : gapped.startAt 1 = 2 := rfl
  have ends : gapped.endAt 1 = 2 := rfl
  have large : 1 < Nat.pow 10 Text.maxDigits :=
    Nat.lt_trans (by decide) (Text.lt_pow_digits Text.maxDigits)
  generalize power : Nat.pow 10 Text.maxDigits = bound at large
  have refused : gapped.offsetOf 1 ((bound : Int) - 1) = _ :=
    gapped.offsetOf_natCast present ((bound : Int) - 1)
  rw [starts, ends, if_pos (.inr (by omega))] at refused
  have unwritable : Text.isWritable ((2 : Nat) + ((bound : Int) - 1)) = false := by
    rw [Text.isWritable_eq_false_iff, power]
    omega
  rw [gapped.refusesPosition_iff refused, gapped.refusesPosition_iff refused, unwritable]
  simp

end Source

end Emend
