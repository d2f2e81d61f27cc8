import Emend.Proofs.Diffs

/-!
# The lines that a diff shows and the lines that result

A diff invites to read it as an edit of a list of lines: from the line of its header on,
the removed lines go and the added lines come. In texts that only newlines break, this
reading gives the lines of the patched text for some patches and not for others, and the
ends of the two blocks decide which. A block is closed if it is empty or ends with a
newline, and open otherwise. Showing a block line by line leaves out the empty line after
a final newline, so a closed block has one line less on display than in the text. The
reading is right exactly if both blocks are closed or both are open.

If only one of them is closed, the patch adds or takes away the end of a line that is
shown. In the extreme case nothing else changes, and the removed and the added lines are
the same although the patch changes the text.
-/

namespace Emend

namespace Text

/-- Nothing but a newline breaks a line of the text. -/
def OnlyNewlines (t : Text) : Prop := ∀ c ∈ t, isLineBreak c = true → c = '\n'

instance (t : Text) : Decidable (OnlyNewlines t) :=
  List.decidableBAll (fun c => isLineBreak c = true → c = '\n') t

/-- The text is empty or ends with a newline. -/
def Closed (t : Text) : Prop := t.getLastD '\n' = '\n'

instance (t : Text) : Decidable (Closed t) := inferInstanceAs (Decidable (_ = _))

variable {t u : Text}

theorem OnlyNewlines.append (left : OnlyNewlines t) (right : OnlyNewlines u) :
    OnlyNewlines (t ++ u) := by
  intro c member
  rcases List.mem_append.mp member with inLeft | inRight
  · exact left c inLeft
  · exact right c inRight

theorem OnlyNewlines.of_subset (plain : OnlyNewlines t) (part : u ⊆ t) : OnlyNewlines u :=
  fun c member => plain c (part member)

theorem OnlyNewlines.slice (plain : OnlyNewlines t) (start stop : Nat) :
    OnlyNewlines (t.slice start stop) :=
  plain.of_subset fun _ member => List.mem_of_mem_drop (List.mem_of_mem_take member)

theorem closed_append_newline (t : Text) : Closed (t ++ ['\n']) := List.getLastD_concat ..

theorem closed_append_cons (t u : Text) : Closed (t ++ '\n' :: u) ↔ Closed u := by
  have same : (t ++ '\n' :: u).getLastD '\n' = u.getLastD '\n' := by
    simp [List.getLastD_eq_getLast?, List.getLast?_cons]
  rw [Closed, Closed, same]

/-- A closed text that is not empty has a last newline. -/
theorem Closed.cases (closed : Closed t) : t = [] ∨ ∃ front, t = front ++ ['\n'] := by
  rcases List.eq_nil_or_concat t with rfl | ⟨front, last, rfl⟩
  · exact .inl rfl
  · rw [Closed, List.concat_eq_append, List.getLastD_concat] at closed
    exact .inr ⟨front, by rw [closed, List.concat_eq_append]⟩

/-- A character other than a carriage return ends the current line or goes on with it. -/
theorem displayFrom_cons {c : Char} (notReturn : c ≠ '\r') (line rest : Text) :
    displayFrom line (c :: rest) =
      if isLineBreak c then line.reverse :: displayFrom [] rest
      else displayFrom (c :: line) rest := by
  rw [displayFrom.eq_def]
  split
  · rename_i impossible
    cases impossible
  · rename_i impossible
    cases impossible
  · rename_i same
    exact absurd (List.cons.inj same).1 notReturn
  · rename_i same
    cases same
    rfl

/-- The displayed lines are those between newlines, less the empty one after a final
newline. The induction is on what is left of the text; the current line grows until a
newline is met. -/
theorem splitOn_displayFrom {line : Text} (unbroken : '\n' ∉ line) (plain : OnlyNewlines t) :
    (line.reverse ++ t).splitOn '\n' =
      displayFrom line t ++ if Closed (line.reverse ++ t) then [[]] else [] := by
  induction t generalizing line with
  | nil =>
    rw [List.append_nil, List.splitOn_eq_singleton (by simpa using unbroken)]
    cases line with
    | nil => rfl
    | cons c earlier =>
      have other : c ≠ '\n' := fun same => unbroken (same ▸ List.mem_cons_self)
      have isOpen : ¬ Closed (c :: earlier).reverse := by
        rw [Closed, List.reverse_cons, List.getLastD_concat]
        exact other
      rw [if_neg isOpen]
      rfl
  | cons c rest inductionHypothesis =>
    have plainRest : OnlyNewlines rest := plain.of_subset (List.subset_cons_self c rest)
    by_cases newline : c = '\n'
    · have further := inductionHypothesis List.not_mem_nil plainRest
      rw [List.reverse_nil, List.nil_append] at further
      have breaks : isLineBreak '\n' = true := rfl
      rw [newline, List.splitOn_append_cons_self,
        List.splitOn_eq_singleton (by simpa using unbroken), further,
        displayFrom_cons (by decide), if_pos breaks]
      simp only [closed_append_cons]
      rfl
    · have unbrokenNext : '\n' ∉ c :: line := by
        simp [unbroken, Ne.symm newline]
      have further := inductionHypothesis unbrokenNext plainRest
      rw [List.reverse_cons, List.append_assoc, List.singleton_append] at further
      have inner : ¬ isLineBreak c = true := fun breaks =>
        newline (plain c List.mem_cons_self breaks)
      have notReturn : c ≠ '\r' := by
        rintro rfl
        exact inner rfl
      rw [further, displayFrom_cons notReturn, if_neg inner]

theorem splitOn_eq_displayLines (plain : OnlyNewlines t) :
    t.splitOn '\n' = t.displayLines ++ if Closed t then [[]] else [] :=
  splitOn_displayFrom List.not_mem_nil plain

theorem length_splitOn (t : Text) : (t.splitOn '\n').length = t.count '\n' + 1 := by
  have cut := congrArg List.length (Source.map_lineText { text := t })
  rw [List.length_map, List.length_map, List.length_range, Source.lineCount_eq_count] at cut
  exact cut.symm

/-- A closed text has as many displayed lines as newlines. -/
theorem length_displayLines (plain : OnlyNewlines t) (closed : Closed t) :
    t.displayLines.length = t.count '\n' := by
  have cut := congrArg List.length (splitOn_eq_displayLines plain)
  rw [length_splitOn, if_pos closed, List.length_append, List.length_singleton] at cut
  omega

/-- Different texts have different lines. -/
theorem splitOn_injective (same : t.splitOn '\n' = u.splitOn '\n') : t = u :=
  calc t = ['\n'].intercalate (t.splitOn '\n') := (List.intercalate_splitOn '\n').symm
    _ = ['\n'].intercalate (u.splitOn '\n') := by rw [same]
    _ = u := List.intercalate_splitOn '\n'

/-- After a closed text the lines start afresh. -/
theorem splitOn_append_of_closed (plain : OnlyNewlines t) (closed : Closed t) (rest : Text) :
    (t ++ rest).splitOn '\n' = t.displayLines ++ rest.splitOn '\n' := by
  have whole := splitOn_eq_displayLines plain
  rw [if_pos closed] at whole
  rcases closed.cases with rfl | ⟨front, rfl⟩
  · rfl
  · rw [List.splitOn_append_cons_self, List.splitOn_nil] at whole
    rw [List.append_assoc, List.singleton_append, List.splitOn_append_cons_self,
      List.append_cancel_right whole]

/-- A text up to the end of a line: nothing follows, or a newline. -/
def AtLineEnd (rest : Text) : Prop := rest = [] ∨ ∃ later, rest = '\n' :: later

/-- An open text that is followed by the end of its line has its displayed lines. -/
theorem splitOn_append_of_open (plain : OnlyNewlines t) (isOpen : ¬ Closed t) {rest : Text}
    (ends : AtLineEnd rest) :
    (t ++ rest).splitOn '\n' = t.displayLines ++ (rest.splitOn '\n').tail := by
  have whole := splitOn_eq_displayLines plain
  rw [if_neg isOpen, List.append_nil] at whole
  rcases ends with rfl | ⟨later, rfl⟩
  · rw [List.append_nil, whole]
    simp
  · have first := List.splitOn_append_cons_self (a := '\n') [] later
    rw [List.nil_append] at first
    rw [List.splitOn_append_cons_self, whole, first]
    rfl

/-- The text with a newline after its last line, where there is none yet. -/
def ended (t : Text) : Text := if Closed t then t else t ++ ['\n']

theorem splitOn_ended (plain : OnlyNewlines t) :
    t.ended.splitOn '\n' = t.displayLines ++ [[]] := by
  have whole := splitOn_eq_displayLines plain
  rw [ended]
  by_cases closed : Closed t
  · rw [if_pos closed] at whole ⊢
    exact whole
  · rw [if_neg closed, List.append_nil] at whole
    rw [if_neg closed, List.splitOn_append_cons_self, List.splitOn_nil, whole]

/-- Two texts are displayed alike exactly if they differ at most in a final newline. -/
theorem displayLines_eq_iff (plain : OnlyNewlines t) (plain' : OnlyNewlines u) :
    t.displayLines = u.displayLines ↔ t.ended = u.ended := by
  have lines := splitOn_ended plain
  have lines' := splitOn_ended plain'
  constructor
  · intro same
    apply splitOn_injective
    rw [lines, lines', same]
  · intro same
    rw [same, lines'] at lines
    exact (List.append_cancel_right lines).symm

/-- Texts that differ at most in a final newline, both closed or both open, do not differ. -/
theorem eq_of_ended_eq (alike : Closed t ↔ Closed u) (same : t.ended = u.ended) : t = u := by
  rw [ended, ended] at same
  by_cases closed : Closed t
  · rwa [if_pos closed, if_pos (alike.mp closed)] at same
  · rw [if_neg closed, if_neg fun closedOther => closed (alike.mpr closedOther)] at same
    exact List.append_cancel_right same

/-- A list of lines in which, from one line on, some are replaced by others. -/
def replaceLines (lines : List Text) (first : Nat) (removed added : List Text) : List Text :=
  lines.take first ++ added ++ lines.drop (first + removed.length)

/-- A block of whole lines is replaced, and the lines on display are read as an edit. -/
theorem replaceLines_iff {before old new after : Text} (plainBefore : OnlyNewlines before)
    (plainOld : OnlyNewlines old) (plainNew : OnlyNewlines new) (closed : Closed before)
    (ends : ¬ Closed old → AtLineEnd after) :
    old.displayLines <+:
        ((before ++ old ++ after).splitOn '\n').drop before.displayLines.length ∧
      (replaceLines ((before ++ old ++ after).splitOn '\n') before.displayLines.length
          old.displayLines new.displayLines = (before ++ new ++ after).splitOn '\n' ↔
        (Closed old ↔ Closed new)) := by
  have size (block : Text) : ((block ++ after).splitOn '\n').length =
      block.count '\n' + after.count '\n' + 1 := by
    rw [length_splitOn, List.count_append]
  have sizeNew := congrArg List.length (splitOn_eq_displayLines plainNew)
  rw [length_splitOn, List.length_append] at sizeNew
  -- The lines before the block are the same on both sides.
  rw [List.append_assoc, List.append_assoc, splitOn_append_of_closed plainBefore closed,
    splitOn_append_of_closed plainBefore closed, List.drop_left, replaceLines, List.take_left,
    List.drop_length_add_append, List.append_assoc, List.append_cancel_left_eq]
  by_cases closedOld : Closed old
  · rw [splitOn_append_of_closed plainOld closedOld, List.drop_left]
    refine ⟨List.prefix_append _ _, ?_⟩
    simp only [closedOld, true_iff]
    constructor
    · intro same
      -- An open new block would come out one line short.
      by_cases closedNew : Closed new
      · exact closedNew
      · have counted := congrArg List.length same
        rw [size, List.length_append, length_splitOn] at counted
        rw [if_neg closedNew, List.length_nil] at sizeNew
        omega
    · intro closedNew
      rw [splitOn_append_of_closed plainNew closedNew]
  · have atEnd := ends closedOld
    rw [splitOn_append_of_open plainOld closedOld atEnd, List.drop_left]
    refine ⟨List.prefix_append _ _, ?_⟩
    simp only [closedOld, false_iff]
    constructor
    · intro same closedNew
      have counted := congrArg List.length same
      rw [size, List.length_append, List.length_tail, length_splitOn] at counted
      rw [if_pos closedNew, List.length_singleton] at sizeNew
      omega
    · intro openNew
      rw [splitOn_append_of_open plainNew openNew atEnd]

theorem slice_eq_append_newline {start stop : Nat} (ordered : start ≤ stop)
    (newline : t[stop]? = some '\n') : t.slice start (stop + 1) = t.slice start stop ++ ['\n'] := by
  have longer : stop + 1 - start = stop - start + 1 := by omega
  rw [slice, slice, longer, List.take_add_one, List.getElem?_drop, Nat.add_sub_cancel' ordered,
    newline]
  rfl

end Text

namespace Source

variable (s : Source)

/-- The content of a line that is not the last one ends at a newline. -/
theorem newline_at_endAt {line : Nat} (next : line + 1 < s.lineCount) :
    s.text[s.endAt line]? = some '\n' := by
  obtain ⟨o, place, newline⟩ := newline_of_mem_startsAfter (s.startAt_next_mem next)
  have starts := s.startAt_next next
  have here : s.endAt line = o := by omega
  rw [here, newline]

theorem atLineEnd_drop_endAt (line : Nat) : Text.AtLineEnd (s.text.drop (s.endAt line)) := by
  by_cases next : line + 1 < s.lineCount
  · obtain ⟨inside, newline⟩ := List.getElem?_eq_some_iff.mp (s.newline_at_endAt next)
    right
    rw [List.drop_eq_getElem_cons inside, newline]
    exact ⟨_, rfl⟩
  · left
    rw [endAt, if_neg next]
    exact List.drop_length

/-- The text up to the start of an offset's line is closed. -/
theorem closed_take_startAt {o : Nat} (inside : o ≤ s.length) :
    Text.Closed (s.text.take (s.startAt (s.lineAt o))) := by
  rcases (s.beginsLine_startAt inside).first with first | ⟨k, place, newline⟩
  · rw [first, List.take_zero]
    rfl
  · rw [place, List.take_add_one, newline]
    exact Text.closed_append_newline _

end Source

namespace Patch

variable (p : Patch)

theorem closed_take_blockStart : Text.Closed (p.source.text.take p.blockStart) := by
  rw [blockStart, lineRange_fst]
  exact p.source.closed_take_startAt p.start_inside

/-- An old block that reaches over the last newline of its lines is closed. -/
theorem atLineEnd_of_open (isOpen : ¬ p.oldBlock.Closed) :
    Text.AtLineEnd (p.source.text.drop p.blockStop) := by
  rcases p.blockStop_cases with ends | ⟨next, ends⟩
  · rw [ends]
    exact p.source.atLineEnd_drop_endAt _
  · have starts := p.source.startAt_next next
    have ordered : p.blockStart ≤ p.source.endAt p.lineRange.2 :=
      Nat.le_trans (p.source.startAt_mono p.lineRange_ordered p.lineRange_present)
        (p.source.startAt_le_endAt p.lineRange_present)
    rw [oldBlock, ends, starts,
      Text.slice_eq_append_newline ordered (p.source.newline_at_endAt next)] at isOpen
    exact absurd (Text.closed_append_newline _) isOpen

/-- The text before the blocks has as many lines as the number in the header says. -/
theorem length_displayLines_before (plain : p.source.text.OnlyNewlines) :
    (Text.displayLines (p.source.text.take p.blockStart)).length = p.lineRange.1 := by
  rw [Text.length_displayLines (plain.of_subset fun _ => List.mem_of_mem_take)
    p.closed_take_blockStart, ← p.source.lineAt_eq_count, blockStart,
    p.source.lineAt_startAt p.firstLine_present]

theorem oldBlock_eq : p.oldBlock = p.source.text.slice p.blockStart p.start ++ p.replaced ++
    p.source.text.slice p.stop p.blockStop := by
  rw [oldBlock, replaced, Text.slice_append_slice _ p.blockStart_le_start p.ordered,
    Text.slice_append_slice _ (Nat.le_trans p.blockStart_le_start p.ordered) p.stop_le_blockStop]

/-- A patch changes nothing exactly if the blocks are equal. -/
theorem isNoop_iff : p.isNoop = true ↔ p.oldBlock = p.newBlock := by
  rw [oldBlock_eq, newBlock, List.append_cancel_right_eq, List.append_cancel_left_eq, isNoop,
    decide_eq_true_eq]
  exact eq_comm

/-- What becomes of the lines of a text when a diff is read as an edit of them. The removed
lines stand in the text from the line of the header on. Putting the added lines in their
place gives the lines of the patched text exactly if both blocks are closed or both are
open, and then equal removed and added lines mean that nothing changes; in general they
mean that the blocks differ at most in a final newline. -/
theorem resulting_lines_shown_iff (limit : Int) (plainText : p.source.text.OnlyNewlines)
    (plainReplacement : p.replacement.OnlyNewlines)
    (fits : (p.diffLines.length : Int) ≤ max 3 limit) :
    ∃ (line : Nat) (removed added : List Text) (result : Text),
      p.diff limit =
        ⟨"class:header",
          ("@@ " ++ p.source.shownUrl ++ ":" ++ Text.ofNat (line + 1) ++ " @@\n").toList⟩ ::
        (removed.map (fun l => ⟨"class:removed", '-' :: l ++ ['\n']⟩) ++
          added.map fun l => ⟨"class:added", '+' :: l ++ ['\n']⟩) ∧
      apply p.source.text [p] = .ok result ∧
      removed <+: (p.source.text.splitOn '\n').drop line ∧
      (Text.replaceLines (p.source.text.splitOn '\n') line removed added =
          result.splitOn '\n' ↔ (p.oldBlock.Closed ↔ p.newBlock.Closed)) ∧
      ((p.oldBlock.Closed ↔ p.newBlock.Closed) → removed = added → p.isNoop = true) ∧
      (removed = added ↔ p.oldBlock.ended = p.newBlock.ended) := by
  have plainOld : p.oldBlock.OnlyNewlines := plainText.slice _ _
  have plainNew : p.newBlock.OnlyNewlines :=
    ((plainText.slice _ _).append plainReplacement).append (plainText.slice _ _)
  have plainBefore : Text.OnlyNewlines (p.source.text.take p.blockStart) :=
    plainText.of_subset fun _ => List.mem_of_mem_take
  obtain ⟨stand, replaced⟩ := Text.replaceLines_iff plainBefore plainOld plainNew
    p.closed_take_blockStart p.atLineEnd_of_open
  rw [p.text_eq_oldBlock, p.length_displayLines_before plainText] at stand replaced
  rw [← p.splice_eq_newBlock] at replaced
  have alike := Text.displayLines_eq_iff plainOld plainNew
  refine ⟨p.lineRange.1, p.oldBlock.displayLines, p.newBlock.displayLines, _, ?_,
    p.apply_singleton, stand, replaced, ?_, alike⟩
  · rw [p.diff_of_le fits, map_fragment_diffLines]
    rfl
  · intro both same
    rw [isNoop_iff]
    exact Text.eq_of_ended_eq both (alike.mp same)

/-- A line is put between two others, with its newline. -/
def putBetween : Patch :=
  ⟨⟨['f', 'o', 'u', 'r', '\n', 's', 'i', 'x'], none⟩, 5, 5, ['f', 'i', 'v', 'e', '\n'],
    Nat.le_of_ble_eq_true rfl, Nat.le_of_ble_eq_true rfl⟩

/-- The diff of a line that is put between two others shows the lines that result. -/
theorem putBetween_resulting_lines_shown_iff :
    putBetween.source.text.OnlyNewlines ∧ putBetween.replacement.OnlyNewlines ∧
      ((putBetween.diffLines.length : Int) ≤ max 3 3) ∧
      ∃ (line : Nat) (removed added : List Text) (result : Text),
        apply putBetween.source.text [putBetween] = .ok result ∧
        Text.replaceLines (putBetween.source.text.splitOn '\n') line removed added =
          result.splitOn '\n' := by
  have plainText : putBetween.source.text.OnlyNewlines := by decide
  have plainReplacement : putBetween.replacement.OnlyNewlines := by decide
  have fits : (putBetween.diffLines.length : Int) ≤ max 3 3 := by decide +kernel
  have alike : putBetween.oldBlock.Closed ↔ putBetween.newBlock.Closed := by decide +kernel
  obtain ⟨line, removed, added, result, _, applied, _, exact, _⟩ :=
    putBetween.resulting_lines_shown_iff 3 plainText plainReplacement fits
  exact ⟨plainText, plainReplacement, fits, line, removed, added, result, applied,
    exact.mpr alike⟩

/-- The newline between two lines is taken out. -/
def joined : Patch :=
  ⟨⟨['f', 'o', 'u', 'r', '\n', 's', 'i', 'x'], none⟩, 4, 5, [], Nat.le_of_ble_eq_true rfl,
    Nat.le_of_ble_eq_true rfl⟩

/-- A patch that joins two lines is shown with equal removed and added lines. It changes the
text all the same, and the line that is shown as added is no line of the result. -/
theorem joined_lines_shown_alike :
    joined.source.text.OnlyNewlines ∧ joined.replacement.OnlyNewlines ∧
      joined.isNoop = false ∧
      joined.diff 10 =
        [⟨"class:header", "@@ <text>:1 @@\n".toList⟩, ⟨"class:removed", "-four\n".toList⟩,
          ⟨"class:added", "+four\n".toList⟩] ∧
      apply joined.source.text [joined] = .ok "foursix".toList ∧
      Text.replaceLines (joined.source.text.splitOn '\n') 0 ["four".toList] ["four".toList] ≠
        "foursix".toList.splitOn '\n' :=
  ⟨by decide, by decide, by decide, by decide +kernel, joined.apply_singleton, by decide +kernel⟩

end Patch

end Emend
