import Emend.Patch.Fitted
import Emend.Proofs.TouchedLines

/-!
# What an excerpt underlines

An excerpt shows a run of lines around a patch, each once and with its number, and puts
a marker under each line that the patch touches. Three branches decide where a marker
starts and ends: whether the line is the first touched one, whether it is the last, and
whether the patch ends within the text that is shown of it. They come to one rule. The
carets stand under the shown characters that the patch replaces, and if there are none
on a line, one caret stands where the patch starts or, on a later line, where the line
starts.
-/

namespace Emend

namespace Text

/-- The second text is the first one without the carriage returns at its end. -/
def WithoutReturns (t shown : Text) : Prop :=
  (∃ count, t = shown ++ List.replicate count '\r') ∧ shown.getLast? ≠ some '\r'

theorem withoutReturns_trimRight (t : Text) : WithoutReturns t (t.trimRight (· = '\r')) := by
  have split := List.takeWhile_append_dropWhile (p := (· = '\r')) (l := t.reverse)
  constructor
  · refine ⟨(t.reverse.takeWhile (· = '\r')).length, ?_⟩
    have returns : (t.reverse.takeWhile (· = '\r')).reverse =
        List.replicate (t.reverse.takeWhile (· = '\r')).length '\r' := by
      rw [List.eq_replicate_iff, List.length_reverse]
      refine ⟨rfl, ?_⟩
      intro c member
      have passed := List.all_eq_true.mp List.all_takeWhile c (List.mem_reverse.mp member)
      simpa using passed
    rw [← returns, trimRight, ← List.reverse_append, split, List.reverse_reverse]
  · rw [trimRight, List.getLast?_reverse]
    intro last
    have kept := List.head?_dropWhile_not (· = '\r') t.reverse
    rw [last] at kept
    simp at kept

theorem WithoutReturns.length_le {t shown : Text} (trimmed : WithoutReturns t shown) :
    shown.length ≤ t.length := by
  obtain ⟨⟨count, rfl⟩, _⟩ := trimmed
  rw [List.length_append]
  omega

/-- Greater numbers do not have fewer digits. -/
theorem length_toDigits_mono {n m : Nat} (ordered : n ≤ m) :
    (Nat.toDigits 10 n).length ≤ (Nat.toDigits 10 m).length := by
  have positive : 0 < (Nat.toDigits 10 m).length := Nat.length_toDigits_pos
  rw [Nat.length_toDigits_le_iff (by decide) positive]
  have bounded := (Nat.length_toDigits_le_iff (b := 10) (n := m) (by decide) positive).mp
    (Nat.le_refl _)
  exact Nat.lt_of_le_of_lt ordered bounded

theorem length_ofInt_natCast (n : Nat) : (ofInt n).length = (Nat.toDigits 10 n).length :=
  String.length_ofList

/-- The carets of a row of blanks and carets. -/
theorem caret_iff (blanks carets column : Nat) :
    (List.replicate blanks ' ' ++ List.replicate carets '^')[column]? = some '^' ↔
      blanks ≤ column ∧ column < blanks + carets := by
  rw [List.getElem?_append, List.length_replicate]
  split
  · rename_i before
    rw [List.getElem?_replicate, if_pos before]
    constructor
    · intro blank
      cases blank
    · intro between
      omega
  · rename_i after
    rw [List.getElem?_replicate]
    split
    · rename_i inside
      exact iff_of_true rfl (by omega)
    · rename_i outside
      exact iff_of_false (by simp) (by omega)

end Text

namespace Patch

variable (p : Patch)

/-- The patch replaces a character that is shown: the one in a column of a line, where the
line starts at an offset and its text is shown in part. -/
def Covers (begins : Nat) (shown : Text) (column : Nat) : Prop :=
  column < shown.length ∧ p.start ≤ begins + column ∧ begins + column < p.stop

/-- The column in which the marker under a line starts. -/
def markerStart (line : Nat) : Nat :=
  if line = p.lineRange.1 then p.start - p.source.startAt line else 0

/-- The column in which the marker under a line ends, if it does not shrink to one caret. -/
def markerStop (line : Nat) : Nat :=
  if line = p.lineRange.2 ∧ p.stop ≤ p.source.startAt line + (p.shownLine line).length then
    p.stop - p.source.startAt line
  else (p.shownLine line).length

theorem underline_eq (line : Nat) :
    p.underline line =
      (p.markerStart line, max 1 (p.markerStop line - p.markerStart line)) := rfl

theorem shownLine_withoutReturns {line : Nat} (present : line < p.source.lineCount) :
    ∃ text, p.source.lineText line = .ok text ∧ text.WithoutReturns (p.shownLine line) :=
  ⟨_, p.source.lineText_natCast present, Text.withoutReturns_trimRight _⟩

/-- What is shown of a line ends with its content or before. -/
theorem startAt_add_shownLine_le {line : Nat} (present : line < p.source.lineCount) :
    p.source.startAt line + (p.shownLine line).length ≤ p.source.endAt line := by
  have shorter := (Text.withoutReturns_trimRight
    (p.source.text.slice (p.source.startAt line) (p.source.endAt line))).length_le
  rw [Text.length_slice (p.source.endAt_le_length line)] at shorter
  have ordered := p.source.startAt_le_endAt present
  rw [shownLine]
  omega

theorem last_le_lineAt_stop : p.lineRange.2 ≤ p.source.lineAt p.stop := by
  rcases p.lineRange_ends with ⟨last, _⟩ | ⟨_, next, ends⟩
  · exact Nat.le_of_eq last.symm
  · rw [ends, p.source.lineAt_startAt next]
    exact Nat.le_succ _

/-- On a touched line the marker runs over the shown characters that the patch replaces.
The first touched line is the one that holds the start of the patch; on a line before the
last touched one, the patch goes on past everything that is shown. -/
theorem covers_iff {line : Nat} (after : p.lineRange.1 ≤ line) (before : line ≤ p.lineRange.2)
    (column : Nat) :
    p.Covers (p.source.startAt line) (p.shownLine line) column ↔
      p.markerStart line ≤ column ∧ column < p.markerStop line := by
  have present : line < p.source.lineCount := Nat.lt_of_le_of_lt before p.lineRange_present
  have shown := p.startAt_add_shownLine_le present
  have starts := p.source.startAt_le_iff present p.start
  rw [← lineRange_fst] at starts
  have begins := (p.source.startAt_le_iff present p.stop).mpr
    (Nat.le_trans before p.last_le_lineAt_stop)
  have passes : line ≠ p.lineRange.2 → p.source.endAt line < p.stop := by
    intro earlier
    have ends := p.source.le_endAt_iff p.inside line
    have reached := p.last_le_lineAt_stop
    omega
  have left : p.start ≤ p.source.startAt line + column ↔ p.markerStart line ≤ column := by
    rw [markerStart]
    by_cases first : line = p.lineRange.1
    · rw [if_pos first]
      omega
    · rw [if_neg first]
      omega
  have right : column < (p.shownLine line).length ∧ p.source.startAt line + column < p.stop ↔
      column < p.markerStop line := by
    rw [markerStop]
    by_cases within : line = p.lineRange.2 ∧
        p.stop ≤ p.source.startAt line + (p.shownLine line).length
    · rw [if_pos within]
      omega
    · rw [if_neg within]
      omega
  rw [Covers, left, ← right]
  exact and_left_comm

/-- A marker of blanks and carets under a line: the carets stand under the shown characters
that the patch replaces or, if there are none, under one column instead. -/
structure Marks (begins : Nat) (shown : Text) (instead : Nat) (marker : Text) : Prop where
  blanks : ∀ c ∈ marker, c = ' ' ∨ c = '^'
  carets : ∀ column, marker[column]? = some '^' ↔
    p.Covers begins shown column ∨
      (∀ other, ¬ p.Covers begins shown other) ∧ column = instead

theorem marks_underline {line : Nat} (after : p.lineRange.1 ≤ line)
    (before : line ≤ p.lineRange.2) :
    p.Marks (p.source.startAt line) (p.shownLine line) (p.markerStart line)
      (List.replicate (p.underline line).1 ' ' ++ List.replicate (p.underline line).2 '^') where
  blanks := by
    intro c member
    rcases List.mem_append.mp member with blank | caret
    · exact .inl (List.eq_of_mem_replicate blank)
    · exact .inr (List.eq_of_mem_replicate caret)
  carets := by
    intro column
    simp only [Text.caret_iff, underline_eq, p.covers_iff after before]
    by_cases some : p.markerStart line < p.markerStop line
    · have covered : ¬ ∀ other, ¬ (p.markerStart line ≤ other ∧ other < p.markerStop line) :=
        fun none => none _ ⟨Nat.le_refl _, some⟩
      simp only [covered, false_and, or_false]
      omega
    · have none : ∀ other, ¬ (p.markerStart line ≤ other ∧ other < p.markerStop line) := by
        omega
      simp only [none, false_or, not_false_eq_true, implies_true, true_and]
      omega

theorem markerStart_eq (line : Nat) :
    p.markerStart line =
      if line = p.lineRange.1 then p.source.columnAt p.start else 0 := by
  rw [markerStart]
  by_cases first : line = p.lineRange.1
  · rw [if_pos first, if_pos first, first, lineRange_fst, Source.columnAt]
  · rw [if_neg first, if_neg first]

/-- A line as an excerpt shows it: its number, set right in a gutter of the given width, its
text without the carriage returns at the end and, if the patch touches the line, a marker
behind a gutter of the same width. The patch starts in the given line and column. -/
def ShowsLine (first column width line : Nat) (row : List Fragment) : Prop :=
  ∃ (begins blanks : Nat) (text shown number : Text),
    p.source.lineStart line = .ok begins ∧
    p.source.lineText line = .ok text ∧ text.WithoutReturns shown ∧
    number = List.replicate blanks ' ' ++ Nat.toDigits 10 (line + 1) ∧ number.length = width ∧
    ((¬ p.Touches line ∧
        row = [⟨"class:lineno", number ++ " | ".toList⟩, ⟨"", shown ++ ['\n']⟩]) ∨
      (p.Touches line ∧ ∃ marker,
        p.Marks begins shown (if line = first then column else 0) marker ∧
        row = [⟨"class:lineno", number ++ " | ".toList⟩, ⟨"", shown ++ ['\n']⟩,
          ⟨"class:lineno", List.replicate width ' ' ++ " | ".toList⟩,
          ⟨"class:highlight", marker ++ ['\n']⟩]))

/-- A row of an excerpt whose gutter has room for its number shows its line. -/
theorem showsLine_rowFragments {line width : Nat} (present : line < p.source.lineCount)
    (room : (Nat.toDigits 10 (line + 1)).length ≤ width) :
    p.ShowsLine p.lineRange.1 (p.source.columnAt p.start) width line
      (rowFragments width (p.excerptRow line)) := by
  obtain ⟨text, found, trimmed⟩ := p.shownLine_withoutReturns present
  refine ⟨p.source.startAt line, width - (Nat.toDigits 10 (line + 1)).length, text,
    p.shownLine line, _, p.source.lineStart_natCast present, found, trimmed, rfl, ?_, ?_⟩
  · rw [List.length_append, List.length_replicate]
    omega
  · rw [p.touches_iff]
    by_cases touched : p.lineRange.1 ≤ line ∧ line ≤ p.lineRange.2
    · right
      have marks := p.marks_underline touched.1 touched.2
      rw [markerStart_eq] at marks
      have underlined : (p.excerptRow line).underline = some (p.underline line) :=
        if_pos touched
      refine ⟨touched, _, marks, ?_⟩
      rw [rowFragments, underlined]
      rfl
    · left
      have plain : (p.excerptRow line).underline = none := if_neg touched
      refine ⟨touched, ?_⟩
      rw [rowFragments, plain]
      rfl

/-- The rows of an excerpt whose gutter is as wide as the number of the last line: each shows
its line. -/
theorem showsLine_of_mem {top : Nat} {bottom : Int} (bounded : bottom < p.source.lineCount)
    {line : Nat} (member : line ∈ List.range' top (bottom + 1 - top).toNat) :
    p.ShowsLine p.lineRange.1 (p.source.columnAt p.start) (Text.ofInt (bottom + 1)).length line
      (rowFragments (Text.ofInt (bottom + 1)).length (p.excerptRow line)) := by
  rw [List.mem_range'_1] at member
  obtain ⟨last, rfl⟩ := Int.eq_ofNat_of_zero_le (show 0 ≤ bottom by omega)
  have present : line < p.source.lineCount := by omega
  have room := Text.length_toDigits_mono (show line + 1 ≤ last + 1 by omega)
  rw [← Text.length_ofInt_natCast (last + 1)] at room
  exact p.showsLine_rowFragments present room

/-- An excerpt shows a run of lines around a patch and marks exactly the patched columns.
The lines that the patch touches are looked up and found; the lines shown are those from
`context` lines before the first to `context` lines after the last of them, as far as they
exist, each once and in order; and every line shown is found, stands behind a gutter of one
width, and has a marker under it exactly if the patch touches it. The gutter takes its width
from the number of the last line even if no line is shown, so there is no excerpt if that
number has too many digits, as it has far below zero. -/
theorem underline_exact (context : Int) :
    ∃ first last column : Nat,
      p.lookUpLines = .ok (first, last) ∧
      (∀ line, p.Touches line ↔ first ≤ line ∧ line ≤ last) ∧
      p.source.location p.start = .ok (first, column) ∧
      let bottom := min ((p.source.lineCount : Int) - 1) ((last : Int) + context)
      (Nat.pow 10 Text.maxDigits ≤ (bottom + 1).natAbs →
        p.excerptBy (.int context) = .error .tooLongNumber) ∧
      ((bottom + 1).natAbs < Nat.pow 10 Text.maxDigits →
        ∃ (width : Nat) (lines : List Nat) (row : Nat → List Fragment),
          p.excerptBy (.int context) = .ok (p.excerptHeader :: lines.flatMap row) ∧
          lines.Pairwise (· < ·) ∧
          (∀ line : Nat, line ∈ lines ↔
            max 0 ((first : Int) - context) ≤ line ∧ (line : Int) ≤ bottom) ∧
          ∀ line ∈ lines, p.ShowsLine first column width line (row line)) := by
  refine ⟨p.lineRange.1, p.lineRange.2, p.source.columnAt p.start, p.lookUpLines_eq,
    p.touches_iff, ?_, ?_, ?_⟩
  · rw [p.source.location_natCast p.start_inside, lineRange_fst]
  · intro long
    rw [p.excerptBy_int]
    exact p.excerpt_of_unwritable ((Text.isWritable_eq_false_iff _).mpr long)
  · intro short
    refine ⟨_, List.range' (p.excerptTop context)
      (p.excerptBottom context + 1 - p.excerptTop context).toNat, _, ?_,
      List.pairwise_lt_range', ?_, fun line member => p.showsLine_of_mem ?_ member⟩
    · rw [p.excerptBy_int, p.excerpt_of_writable ((Text.isWritable_iff _).mpr short),
        excerptRows, List.flatMap_map]
    · intro line
      rw [List.mem_range'_1, excerptTop, excerptBottom]
      omega
    · rw [excerptBottom]
      omega

/-- With a context so far below zero that the number of the last line cannot be written,
nothing is shown of a patch, not even where it starts. -/
theorem distant_context_refused :
    let p : Patch := ⟨Source.gapped, 0, 1, [], by decide, by decide⟩
    p.excerptBy (.int (-(Nat.pow 10 Text.maxDigits : Nat) - 3)) = .error .tooLongNumber := by
  intro p
  rw [p.excerptBy_int]
  apply p.excerpt_of_unwritable
  have last := p.lineRange_present
  have lines : p.source.lineCount = 3 := rfl
  rw [Text.isWritable_eq_false_iff, excerptBottom]
  generalize Nat.pow 10 Text.maxDigits = bound
  omega

end Patch

end Emend
