import Emend.Patch
import Emend.Proofs.LineIndex

/-!
# The lines that a patch touches

Where a line starts and which line an offset is on determine each other: a line starts
at or before an offset exactly if the offset is on that line or a later one, and an
offset is at or before the end of a line exactly if it is on that line or an earlier
one. With these two facts all comparisons of places become comparisons of lines.

The line range of a patch is computed from the lines of its two ends, and the last line
is left out if the range stops right at its start. The lines in that range are the lines
that hold a character of the patch or, if the patch only inserts, the one line at which
it inserts.
-/

namespace Emend

namespace Source

variable (s : Source)

/-- A line starts at or before the offsets on it and on later lines, and after all others. -/
theorem startAt_le_iff {line : Nat} (present : line < s.lineCount) (o : Nat) :
    s.startAt line ≤ o ↔ line ≤ s.lineAt o := by
  have counted := getD_le_iff_lt_countP s.lineStarts_increasing present o
  have first : 0 < s.lineStarts.countP (· ≤ o) :=
    List.countP_pos_iff.mpr ⟨0, List.mem_cons_self, by simp⟩
  rw [lineAt_eq_countP, startAt, counted]
  omega

/-- The next line starts one past the end of a line. -/
theorem startAt_next {line : Nat} (next : line + 1 < s.lineCount) :
    s.startAt (line + 1) = s.endAt line + 1 := by
  have positive := lt_of_mem_startsAfter (s.startAt_next_mem next)
  rw [endAt, if_pos next]
  omega

/-- The offsets at or before the end of a line are on that line or on earlier ones. -/
theorem le_endAt_iff {o : Nat} (inside : o ≤ s.length) (line : Nat) :
    o ≤ s.endAt line ↔ s.lineAt o ≤ line := by
  by_cases next : line + 1 < s.lineCount
  · have later := s.startAt_le_iff next o
    have starts := s.startAt_next next
    omega
  · have present := s.lineAt_lt_lineCount o
    rw [endAt, if_neg next]
    constructor
    · intro _
      omega
    · intro _
      exact inside

theorem lineAt_startAt {line : Nat} (present : line < s.lineCount) :
    s.lineAt (s.startAt line) = line :=
  s.lineAt_eq_of_between present (Nat.le_refl _) (s.startAt_le_endAt present)

/-- Later lines start later. -/
theorem startAt_mono {line later : Nat} (ordered : line ≤ later) (present : later < s.lineCount) :
    s.startAt line ≤ s.startAt later := by
  have starts := s.startAt_le_iff (Nat.lt_of_le_of_lt ordered present) (s.startAt later)
  rw [s.lineAt_startAt present] at starts
  exact starts.mpr ordered

/-- Only the place where a line starts has column zero. -/
theorem columnAt_eq_zero_iff {o : Nat} (inside : o ≤ s.length) :
    s.columnAt o = 0 ↔ o = s.startAt (s.lineAt o) := by
  have starts := s.startAt_lineAt_le inside
  rw [columnAt]
  omega

theorem lineOf_natCast {o : Nat} (inside : o ≤ s.length) : s.lineOf o = .ok (s.lineAt o) := by
  rw [lineOf, s.checked_natCast inside]
  rfl

theorem columnOf_natCast {o : Nat} (inside : o ≤ s.length) :
    s.columnOf o = .ok (s.columnAt o) := by
  rw [columnOf, s.checked_natCast inside]
  rfl

end Source

namespace Patch

variable (p : Patch)

theorem start_inside : p.start ≤ p.source.length := Nat.le_trans p.ordered p.inside

/-- The line range as it is asked of the line index, which refuses offsets outside of the
text. -/
def lookUpLines : Except Fault (Nat × Nat) := do
  let first ← p.source.lineOf p.start
  let last ← p.source.lineOf p.stop
  let column ← p.source.columnOf p.stop
  .ok (if first < last ∧ column = 0 then (first, last - 1) else (first, last))

/-- The line index refuses no offset of a patch. -/
theorem lookUpLines_eq : p.lookUpLines = .ok p.lineRange := by
  rw [lookUpLines, p.source.lineOf_natCast p.start_inside, p.source.lineOf_natCast p.inside,
    p.source.columnOf_natCast p.inside]
  rfl

theorem lineRange_fst : p.lineRange.1 = p.source.lineAt p.start := by
  rw [lineRange]
  split <;> rfl

/-- How the range ends. Either it ends on the last touched line, and past the start of it
unless that is the first touched line too; or it ends where the line after the last
touched one starts. -/
theorem lineRange_ends :
    (p.source.lineAt p.stop = p.lineRange.2 ∧
        (p.lineRange.1 < p.lineRange.2 → p.source.startAt p.lineRange.2 < p.stop)) ∨
      (p.lineRange.1 ≤ p.lineRange.2 ∧ p.lineRange.2 + 1 < p.source.lineCount ∧
        p.stop = p.source.startAt (p.lineRange.2 + 1)) := by
  have atStart := p.source.columnAt_eq_zero_iff p.inside
  have present := p.source.lineAt_lt_lineCount p.stop
  have starts := p.source.startAt_lineAt_le p.inside
  rw [lineRange]
  split
  · rename_i untouched
    obtain ⟨later, column⟩ := untouched
    have previous : p.source.lineAt p.stop - 1 + 1 = p.source.lineAt p.stop := by omega
    right
    simp only [previous]
    exact ⟨by omega, present, atStart.mp column⟩
  · rename_i touched
    left
    refine ⟨rfl, ?_⟩
    intro later
    have past : p.source.columnAt p.stop ≠ 0 := fun column => touched ⟨later, column⟩
    simp only at later ⊢
    omega

theorem lineRange_ordered : p.lineRange.1 ≤ p.lineRange.2 := by
  have lines := p.source.lineAt_mono p.ordered
  have first := p.lineRange_fst
  rcases p.lineRange_ends with ⟨last, _⟩ | ⟨ordered, _⟩ <;> omega

theorem lineRange_present : p.lineRange.2 < p.source.lineCount := by
  have present := p.source.lineAt_lt_lineCount p.stop
  rcases p.lineRange_ends with ⟨last, _⟩ | ⟨_, next, _⟩ <;> omega

theorem firstLine_present : p.lineRange.1 < p.source.lineCount :=
  Nat.lt_of_le_of_lt p.lineRange_ordered p.lineRange_present

/-- A line that a patch touches: one that holds a character of its range or, if the range
is empty, the one that holds the place of the insertion. -/
def Touches (line : Nat) : Prop :=
  if p.start < p.stop then
    ∃ o : Nat, p.start ≤ o ∧ o < p.stop ∧ p.source.lineOf o = .ok line
  else p.source.lineOf p.start = .ok line

/-- The characters of a patch are on the lines of its line range. -/
theorem lineAt_mem_lineRange {o : Nat} (after : p.start ≤ o) (before : o < p.stop) :
    p.lineRange.1 ≤ p.source.lineAt o ∧ p.source.lineAt o ≤ p.lineRange.2 := by
  rw [lineRange_fst]
  refine ⟨p.source.lineAt_mono after, ?_⟩
  rcases p.lineRange_ends with ⟨last, _⟩ | ⟨_, next, ends⟩
  · have lines := p.source.lineAt_mono (Nat.le_of_lt before)
    omega
  · have earlier := p.source.startAt_le_iff next o
    omega

/-- Each line of the range starts before the patch ends. -/
theorem startAt_lt_stop (nonempty : p.start < p.stop) {line : Nat} (after : p.lineRange.1 ≤ line)
    (before : line ≤ p.lineRange.2) : p.source.startAt line < p.stop := by
  have present : line < p.source.lineCount := Nat.lt_of_le_of_lt before p.lineRange_present
  rw [lineRange_fst] at after
  by_cases first : line = p.source.lineAt p.start
  · have starts := p.source.startAt_lineAt_le p.start_inside
    rw [first]
    omega
  · rcases p.lineRange_ends with ⟨_, past⟩ | ⟨_, next, ends⟩
    · have starts := p.source.startAt_mono before p.lineRange_present
      rw [lineRange_fst] at past
      have pastStart := past (by omega)
      omega
    · have notNext := p.source.startAt_le_iff next (p.source.startAt line)
      rw [p.source.lineAt_startAt present] at notNext
      omega

/-- A patch that only inserts has one line in its range. -/
theorem lineRange_of_insertion (empty : p.start = p.stop) : p.lineRange.1 = p.lineRange.2 := by
  rw [lineRange, empty]
  simp

/-- The line range of a patch is the set of lines that it touches. -/
theorem touches_iff (line : Nat) :
    p.Touches line ↔ p.lineRange.1 ≤ line ∧ line ≤ p.lineRange.2 := by
  rw [Touches]
  split
  · rename_i nonempty
    constructor
    · rintro ⟨o, after, before, found⟩
      rw [p.source.lineOf_natCast (by have inside := p.inside; omega)] at found
      cases found
      exact p.lineAt_mem_lineRange after before
    · rintro ⟨after, before⟩
      have present : line < p.source.lineCount := Nat.lt_of_le_of_lt before p.lineRange_present
      have starts := p.startAt_lt_stop nonempty after before
      have inside := p.inside
      rw [lineRange_fst] at after
      -- The first character of the patch on the line: that of the patch or that of the line.
      by_cases first : line = p.source.lineAt p.start
      · refine ⟨p.start, Nat.le_refl _, nonempty, ?_⟩
        rw [p.source.lineOf_natCast p.start_inside, first]
      · have later := p.source.startAt_le_iff present p.start
        refine ⟨p.source.startAt line, by omega, starts, ?_⟩
        rw [p.source.lineOf_natCast (by omega), p.source.lineAt_startAt present]
  · rename_i empty
    have same : p.start = p.stop := by
      have ordered := p.ordered
      omega
    rw [p.source.lineOf_natCast p.start_inside, ← p.lineRange_of_insertion same, lineRange_fst,
      Except.ok.injEq]
    omega

/-- A patch reaches at most over the newline of the last line that it touches. -/
theorem stop_le_endAt_succ : p.stop ≤ p.source.endAt p.lineRange.2 + 1 := by
  rcases p.lineRange_ends with ⟨last, _⟩ | ⟨_, next, ends⟩
  · have reached := p.source.le_endAt_lineAt p.inside
    rw [last] at reached
    omega
  · exact Nat.le_of_eq (ends.trans (p.source.startAt_next next))

/-- The line range of a patch consists of the lines that hold a character of the patch; of
an insertion it is the line of the place. The lines of the range exist, in order, and the
patch ends with the content of the last one or with its newline. -/
theorem touched_lines_exact :
    ∃ first last : Nat, p.lineRange = (first, last) ∧ p.lookUpLines = .ok (first, last) ∧
      (p.start < p.stop → ∀ line : Nat, first ≤ line ∧ line ≤ last ↔
        ∃ o : Nat, p.start ≤ o ∧ o < p.stop ∧ p.source.lineOf o = .ok line) ∧
      (p.start = p.stop → first = last ∧ p.source.lineOf p.start = .ok first) ∧
      first ≤ last ∧ last < p.source.lineCount ∧
      ∃ lineEnd : Int, p.source.lineEnd last = .ok lineEnd ∧ p.stop ≤ lineEnd + 1 := by
  refine ⟨p.lineRange.1, p.lineRange.2, rfl, p.lookUpLines_eq, ?_, ?_, p.lineRange_ordered,
    p.lineRange_present, _, p.source.lineEnd_natCast p.lineRange_present, ?_⟩
  · intro nonempty line
    rw [← p.touches_iff, Touches, if_pos nonempty]
  · intro empty
    refine ⟨p.lineRange_of_insertion empty, ?_⟩
    rw [p.source.lineOf_natCast p.start_inside, lineRange_fst]
  · have reached := p.stop_le_endAt_succ
    omega

/-- An empty line goes, with the newline of the line before it. -/
def closedUp : Patch :=
  ⟨⟨['a', 'b', 'c', '\n', '\n', 'd'], none⟩, 3, 5, ['\n'], Nat.le_of_ble_eq_true rfl,
    Nat.le_of_ble_eq_true rfl⟩

/-- The same empty line is filled. -/
def filledIn : Patch :=
  ⟨⟨['a', 'b', 'c', '\n', '\n', 'd'], none⟩, 4, 4, ['e'], Nat.le_of_ble_eq_true rfl,
    Nat.le_of_ble_eq_true rfl⟩

/-- The first patch ends where the third line starts, and it touches the two lines before.
The second one touches the line that it fills. -/
theorem closedUp_touched_lines_exact :
    (closedUp.start < closedUp.stop ∧ closedUp.lineRange = (0, 1) ∧
      ∀ line : Nat, 0 ≤ line ∧ line ≤ 1 ↔
        ∃ o : Nat, closedUp.start ≤ o ∧ o < closedUp.stop ∧
          closedUp.source.lineOf o = .ok line) ∧
      filledIn.start = filledIn.stop ∧ filledIn.lineRange = (1, 1) ∧
        filledIn.source.lineOf filledIn.start = .ok 1 := by
  have nonempty : closedUp.start < closedUp.stop := by decide
  have range : closedUp.lineRange = (0, 1) := by decide +kernel
  have place : filledIn.lineRange = (1, 1) := by decide +kernel
  obtain ⟨first, last, same, _, touched, _⟩ := closedUp.touched_lines_exact
  obtain ⟨first', last', same', _, _, inserted, _⟩ := filledIn.touched_lines_exact
  rw [range] at same
  rw [place] at same'
  obtain ⟨rfl, rfl⟩ := Prod.mk.inj same
  obtain ⟨rfl, rfl⟩ := Prod.mk.inj same'
  exact ⟨⟨nonempty, range, touched nonempty⟩, rfl, place, (inserted rfl).2⟩

end Patch

end Emend
