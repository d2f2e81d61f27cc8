import Emend.Source

/-!
# Lines and columns of a source

The search of the line table by halving finds how many lines start at or before an
offset, because the table increases. So the line of an offset is the number of newlines
before it, and a line starts one past the newline that ends the line before. From these
two facts follows how line and column go on from one offset to the next, and that a line
and a column lead to an offset exactly if they are those of the offset.
-/

namespace Emend.Source

/-- There is one entry for every newline. -/
theorem length_startsAfter (offset : Nat) (t : Text) :
    (startsAfter offset t).length = t.count '\n' := by
  induction t generalizing offset with
  | nil => rfl
  | cons c rest inductionHypothesis =>
    rw [startsAfter, List.count_cons]
    split
    · rename_i newline
      simp [newline, inductionHypothesis]
    · rename_i other
      simp [other, inductionHypothesis]

/-- Lines start after the start of the text. -/
theorem lt_of_mem_startsAfter {offset start : Nat} {t : Text}
    (member : start ∈ startsAfter offset t) : offset < start := by
  induction t generalizing offset with
  | nil => cases member
  | cons c rest inductionHypothesis =>
    rw [startsAfter] at member
    split at member
    · rcases List.mem_cons.mp member with rfl | member
      · exact Nat.lt_succ_self _
      · exact Nat.lt_of_succ_lt (inductionHypothesis member)
    · exact Nat.lt_of_succ_lt (inductionHypothesis member)

/-- Lines start within the text or at its end. -/
theorem le_of_mem_startsAfter {offset start : Nat} {t : Text}
    (member : start ∈ startsAfter offset t) : start ≤ offset + t.length := by
  induction t generalizing offset with
  | nil => cases member
  | cons c rest inductionHypothesis =>
    rw [startsAfter] at member
    rw [List.length_cons]
    split at member
    · rcases List.mem_cons.mp member with rfl | member
      · omega
      · have bounded := inductionHypothesis member
        omega
    · have bounded := inductionHypothesis member
      omega

theorem startsAfter_increasing (offset : Nat) (t : Text) :
    (startsAfter offset t).Pairwise (· < ·) := by
  induction t generalizing offset with
  | nil => exact .nil
  | cons c rest inductionHypothesis =>
    rw [startsAfter]
    split
    · exact .cons (fun _ member => lt_of_mem_startsAfter member) (inductionHypothesis _)
    · exact inductionHypothesis _

/-- In an increasing table the entries up to a bound come first. -/
theorem getD_le_iff_lt_countP {table : List Nat} (increasing : table.Pairwise (· < ·)) {i : Nat}
    (inside : i < table.length) (o : Nat) :
    table.getD i 0 ≤ o ↔ i < table.countP (· ≤ o) := by
  induction table generalizing i with
  | nil => cases inside
  | cons first rest inductionHypothesis =>
    rw [List.pairwise_cons] at increasing
    rw [List.countP_cons]
    by_cases reached : first ≤ o
    · cases i with
      | zero => simp [reached]
      | succ i =>
        have further := inductionHypothesis increasing.2 (Nat.lt_of_succ_lt_succ inside)
        simpa [reached] using further
    · have none : rest.countP (· ≤ o) = 0 := by
        rw [List.countP_eq_zero]
        intro later member
        have after := increasing.1 later member
        simp only [decide_eq_true_eq]
        omega
      have entry : first ≤ (first :: rest).getD i 0 := by
        cases i with
        | zero => exact Nat.le_refl first
        | succ i =>
          have member := List.getElem_mem (Nat.lt_of_succ_lt_succ inside)
          have after := increasing.1 _ member
          rw [List.getD_cons_succ, List.getD_eq_getElem?_getD,
            List.getElem?_eq_getElem (Nat.lt_of_succ_lt_succ inside), Option.getD_some]
          exact Nat.le_of_lt after
      simp only [none, reached, decide_false, Bool.false_eq_true, if_false]
      omega

/-- The number of entries up to an offset stays between the bounds of the search, and
the search ends where they meet. -/
theorem placeIn_eq_countP {table : List Nat} (increasing : table.Pairwise (· < ·))
    {o low high : Nat} (above : low ≤ table.countP (· ≤ o))
    (below : table.countP (· ≤ o) ≤ high) (inside : high ≤ table.length) :
    placeIn table o low high = table.countP (· ≤ o) := by
  fun_induction placeIn table o low high with
  | case1 low high apart middle beyond inductionHypothesis =>
    -- The entry in the middle lies beyond the offset, and so do all after it.
    have first := getD_le_iff_lt_countP increasing (i := middle) (by omega) o
    exact inductionHypothesis above (by omega) (by omega)
  | case2 low high apart middle reached inductionHypothesis =>
    have first := getD_le_iff_lt_countP increasing (i := middle) (by omega) o
    exact inductionHypothesis (by omega) below inside
  | case3 low high met => omega

/-- In an increasing table, the entries up to a bound are those up to the last one of
them. -/
theorem countP_le_of_increasing {starts : List Nat} (increasing : starts.Pairwise (· < ·))
    {i start o : Nat} (entry : starts[i]? = some start) (reached : start ≤ o)
    (next : ∀ later, starts[i + 1]? = some later → o < later) :
    starts.countP (· ≤ o) = i + 1 := by
  obtain ⟨inside, same⟩ := List.getElem?_eq_some_iff.mp entry
  have here := getD_le_iff_lt_countP increasing inside o
  rw [List.getD_eq_getElem?_getD, entry, Option.getD_some] at here
  have counted := here.mp reached
  have bounded : starts.countP (· ≤ o) ≤ starts.length := List.countP_le_length
  by_cases last : i + 1 < starts.length
  · have after := getD_le_iff_lt_countP increasing last o
    have beyond := next _ (List.getElem?_eq_getElem last)
    rw [List.getD_eq_getElem?_getD, List.getElem?_eq_getElem last, Option.getD_some] at after
    omega
  · omega

/-- The lines that start at or before an offset are those of the newlines before it. -/
theorem countP_startsAfter (offset o : Nat) (t : Text) :
    (startsAfter offset t).countP (· ≤ offset + o) = (t.take o).count '\n' := by
  induction t generalizing offset o with
  | nil => simp [startsAfter]
  | cons c rest inductionHypothesis =>
    cases o with
    | zero =>
      rw [List.take_zero, List.count_nil, List.countP_eq_zero]
      intro start member
      have after := lt_of_mem_startsAfter member
      simpa using after
    | succ o =>
      have further := inductionHypothesis (offset + 1) o
      rw [Nat.add_assoc, Nat.add_comm 1 o] at further
      rw [startsAfter, List.take_succ_cons, List.count_cons]
      split
      · rename_i newline
        rw [List.countP_cons, further]
        simp [newline]
      · rename_i other
        simp [further, other]

/-- The entry of the first newline at or after an offset lies after the offset. -/
theorem lt_startsAfter {offset o start : Nat} {t : Text}
    (entry : (startsAfter offset t)[(t.take o).count '\n']? = some start) :
    offset + o < start := by
  induction t generalizing offset o with
  | nil => cases entry
  | cons c rest inductionHypothesis =>
    cases o with
    | zero => exact lt_of_mem_startsAfter (List.mem_of_getElem? entry)
    | succ o =>
      rw [startsAfter, List.take_succ_cons, List.count_cons] at entry
      split at entry
      · rename_i newline
        have further := inductionHypothesis (o := o) (by simpa [newline] using entry)
        omega
      · rename_i other
        have further := inductionHypothesis (o := o) (by simpa [other] using entry)
        omega

/-- A newline at an offset starts the line after it. -/
theorem startsAfter_newline (offset : Nat) {o : Nat} {t : Text} (newline : t[o]? = some '\n') :
    (startsAfter offset t)[(t.take o).count '\n']? = some (offset + o + 1) := by
  induction t generalizing offset o with
  | nil => cases newline
  | cons c rest inductionHypothesis =>
    cases o with
    | zero =>
      obtain rfl : c = '\n' := by simpa using newline
      simp [startsAfter]
    | succ o =>
      have further := inductionHypothesis (offset + 1) (o := o) (by simpa using newline)
      rw [startsAfter, List.take_succ_cons, List.count_cons]
      split
      · rename_i ends
        simp only [ends, beq_self_eq_true, if_true, List.getElem?_cons_succ, further]
        congr 1
        omega
      · rename_i other
        simp only [beq_iff_eq, other, if_false, Nat.add_zero, further]
        congr 1
        omega

variable (s : Source)

theorem lineStarts_increasing : s.lineStarts.Pairwise (· < ·) :=
  .cons (fun _ member => lt_of_mem_startsAfter member) (startsAfter_increasing 0 s.text)

/-- The search for an offset finds the last line that starts at or before it. -/
theorem lineAt_eq_countP (o : Nat) : s.lineAt o = s.lineStarts.countP (· ≤ o) - 1 := by
  rw [lineAt]
  congr 1
  exact placeIn_eq_countP s.lineStarts_increasing (Nat.zero_le _) List.countP_le_length
    (Nat.le_refl _)

/-- The line of an offset is the number of newlines before it. -/
theorem lineAt_eq_count (o : Nat) : s.lineAt o = (s.text.take o).count '\n' := by
  have counted := countP_startsAfter 0 o s.text
  rw [Nat.zero_add] at counted
  rw [lineAt_eq_countP, lineStarts, List.countP_cons, counted]
  simp

theorem lineCount_eq_count : s.lineCount = s.text.count '\n' + 1 := by
  rw [lineCount, lineStarts, List.length_cons, length_startsAfter]

/-- An offset lies in a line. -/
theorem lineAt_lt_lineCount (o : Nat) : s.lineAt o < s.lineCount := by
  rw [lineAt_eq_count, lineCount_eq_count]
  exact Nat.lt_succ_of_le ((List.take_sublist o s.text).count_le _)

theorem startAt_succ (line : Nat) : s.startAt (line + 1) = (startsAfter 0 s.text).getD line 0 := rfl

/-- After a newline comes the start of the next line. -/
theorem place_after_newline {o : Nat} (newline : s.text[o]? = some '\n') :
    s.lineAt (o + 1) = s.lineAt o + 1 ∧ s.columnAt (o + 1) = 0 := by
  have line : s.lineAt (o + 1) = s.lineAt o + 1 := by
    rw [lineAt_eq_count, lineAt_eq_count, List.take_add_one, newline]
    simp
  have starts := startsAfter_newline 0 newline
  rw [← lineAt_eq_count] at starts
  refine ⟨line, ?_⟩
  rw [columnAt, line, startAt_succ, List.getD_eq_getElem?_getD, starts, Option.getD_some]
  omega

/-- After another character the line goes on. -/
theorem lineAt_after_other {o : Nat} {c : Char} (here : s.text[o]? = some c) (other : c ≠ '\n') :
    s.lineAt (o + 1) = s.lineAt o := by
  rw [lineAt_eq_count, lineAt_eq_count, List.take_add_one, here]
  simp [other]

/-- A line starts at or before its offsets. -/
theorem startAt_lineAt_le {o : Nat} (inside : o ≤ s.length) : s.startAt (s.lineAt o) ≤ o := by
  induction o with
  | zero =>
    rw [lineAt_eq_count]
    exact Nat.le_refl 0
  | succ o inductionHypothesis =>
    have here : s.text[o]? = some s.text[o] := List.getElem?_eq_getElem inside
    by_cases newline : s.text[o] = '\n'
    · obtain ⟨line, column⟩ := s.place_after_newline (newline ▸ here)
      have starts := startsAfter_newline 0 (newline ▸ here)
      rw [← lineAt_eq_count] at starts
      rw [line, startAt_succ, List.getD_eq_getElem?_getD, starts, Option.getD_some]
      omega
    · rw [s.lineAt_after_other here newline]
      exact Nat.le_succ_of_le (inductionHypothesis (Nat.le_of_succ_le inside))

theorem columnAt_after_other {o : Nat} {c : Char} (here : s.text[o]? = some c) (other : c ≠ '\n') :
    s.columnAt (o + 1) = s.columnAt o + 1 := by
  have inside : o < s.length := (List.getElem?_eq_some_iff.mp here).1
  have starts := s.startAt_lineAt_le (Nat.le_of_lt inside)
  rw [columnAt, columnAt, s.lineAt_after_other here other]
  omega

/-- The next line, if there is one, starts after the offset. -/
theorem lt_startAt_next {o : Nat} (next : s.lineAt o + 1 < s.lineCount) :
    o < s.startAt (s.lineAt o + 1) := by
  rw [lineCount, lineStarts, List.length_cons, Nat.add_lt_add_iff_right] at next
  rw [startAt_succ, List.getD_eq_getElem?_getD, List.getElem?_eq_getElem next, Option.getD_some]
  have entry : (startsAfter 0 s.text)[(s.text.take o).count '\n']? =
      some (startsAfter 0 s.text)[s.lineAt o] := by
    rw [← lineAt_eq_count]
    exact List.getElem?_eq_getElem next
  have after := lt_startsAfter entry
  omega

/-- An offset lies at or before the end of its line. -/
theorem le_endAt_lineAt {o : Nat} (inside : o ≤ s.length) : o ≤ s.endAt (s.lineAt o) := by
  rw [endAt]
  split
  · rename_i next
    exact Nat.le_sub_one_of_lt (s.lt_startAt_next next)
  · exact inside

theorem startAt_next_mem {line : Nat} (next : line + 1 < s.lineCount) :
    s.startAt (line + 1) ∈ startsAfter 0 s.text := by
  rw [lineCount, lineStarts, List.length_cons, Nat.add_lt_add_iff_right] at next
  rw [startAt_succ, List.getD_eq_getElem?_getD, List.getElem?_eq_getElem next, Option.getD_some]
  exact List.getElem_mem next

theorem endAt_le_length (line : Nat) : s.endAt line ≤ s.length := by
  rw [endAt]
  split
  · rename_i next
    have bounded := le_of_mem_startsAfter (s.startAt_next_mem next)
    simp only [length]
    omega
  · exact Nat.le_refl _

/-- An offset between the start and the end of a line is on that line. -/
theorem lineAt_eq_of_between {line o : Nat} (present : line < s.lineCount)
    (starts : s.startAt line ≤ o) (ends : o ≤ s.endAt line) : s.lineAt o = line := by
  have entry : s.lineStarts[line]? = some (s.startAt line) := by
    rw [startAt, List.getD_eq_getElem?_getD, List.getElem?_eq_getElem present, Option.getD_some]
  have next : ∀ start, s.lineStarts[line + 1]? = some start → o < start := by
    intro start later
    have bound : line + 1 < s.lineCount := (List.getElem?_eq_some_iff.mp later).1
    have positive := lt_of_mem_startsAfter (s.startAt_next_mem bound)
    rw [endAt, if_pos bound] at ends
    have same : s.startAt (line + 1) = start := by
      rw [startAt, List.getD_eq_getElem?_getD, later, Option.getD_some]
    omega
  rw [lineAt_eq_countP, countP_le_of_increasing s.lineStarts_increasing entry starts next]
  rfl

theorem lineStart_natCast {line : Nat} (present : line < s.lineCount) :
    s.lineStart line = .ok (s.startAt line) := by
  rw [lineStart, if_neg (by omega)]
  rfl

theorem lineEnd_natCast {line : Nat} (present : line < s.lineCount) :
    s.lineEnd line = .ok (s.endAt line : Int) := by
  rw [lineEnd, endAt]
  by_cases next : line + 1 < s.lineCount
  · have positive := lt_of_mem_startsAfter (s.startAt_next_mem next)
    have entry : s.tableEntry ((line : Int) + 1) = .ok (s.startAt (line + 1)) := by
      have found : s.lineStarts[line + 1]? = some (s.startAt (line + 1)) := by
        rw [startAt, List.getD_eq_getElem?_getD, List.getElem?_eq_getElem next, Option.getD_some]
      have place : ((line : Int) + 1).toNat = line + 1 := by omega
      simp only [tableEntry, show ¬ (line : Int) + 1 < 0 by omega, if_false, place, found]
    rw [if_pos (by omega), if_pos next, entry]
    show Except.ok ((s.startAt (line + 1) : Int) - 1) = _
    congr 1
    omega
  · rw [if_neg (by omega), if_neg next, lineStart_natCast s present]
    rfl

theorem offsetOf_natCast {line : Nat} (present : line < s.lineCount) (column : Int) :
    s.offsetOf line column =
      if column < 0 ∨ (s.endAt line : Int) < s.startAt line + column then
        .error (.showing [(s.startAt line : Int) + column]
          (.invalidRange (s.startAt line + column) (s.startAt line + column) s.length))
      else .ok ((s.startAt line : Int) + column).toNat := by
  rw [offsetOf, lineStart_natCast s present, lineEnd_natCast s present]
  rfl

/-- A line and a column lead to an offset exactly if they are the line and the column of that
offset. -/
theorem offsetOf_eq_ok_iff {line column : Int} {o : Nat} :
    s.offsetOf line column = .ok o ↔
      o ≤ s.length ∧ line = s.lineAt o ∧ column = s.columnAt o := by
  constructor
  · intro found
    by_cases refused : line < 0 ∨ (s.lineCount : Int) ≤ line
    · rw [offsetOf, lineStart, if_pos refused] at found
      cases found
    obtain ⟨line, rfl⟩ := Int.eq_ofNat_of_zero_le (show 0 ≤ line by omega)
    have present : line < s.lineCount := by omega
    rw [s.offsetOf_natCast present] at found
    split at found
    · cases found
    rename_i fits
    have ends := s.endAt_le_length line
    obtain rfl : ((s.startAt line : Int) + column).toNat = o := Except.ok.inj found
    have same := s.lineAt_eq_of_between present
      (show s.startAt line ≤ ((s.startAt line : Int) + column).toNat by omega) (by omega)
    refine ⟨by omega, by rw [same], ?_⟩
    rw [columnAt, same]
    omega
  · rintro ⟨inside, rfl, rfl⟩
    have present := s.lineAt_lt_lineCount o
    have starts := s.startAt_lineAt_le inside
    have ends := s.le_endAt_lineAt inside
    rw [s.offsetOf_natCast present, columnAt, if_neg (by omega)]
    congr 1
    omega

end Emend.Source
