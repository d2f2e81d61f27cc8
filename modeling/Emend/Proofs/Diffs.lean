import Emend.Patch.Fitted
import Emend.Proofs.Stitching
import Emend.Proofs.TouchedLines

/-!
# What a diff shows

The blocks of a diff are found by looking up lines; the text that a patch leads to is
found by cutting at offsets. Both describe one edit: the old block lies in the text
between a line start and a line end, and the text with the new block in its place is the
text with the patch applied. So the removed lines and the added lines of a diff are the
lines of what the patch replaces and of what it puts there, up to whole lines.

A diff with too many lines is shortened. What is shown then is a front and a back of the
full body, with at least one line each, around one line that counts the lines between
them; the front and the back never meet.
-/

namespace Emend

namespace Text

variable (t : Text) {start stop : Nat}

theorem take_append_slice (ordered : start ≤ stop) :
    t.take start ++ t.slice start stop = t.take stop := by
  rw [slice, ← List.take_add, Nat.add_sub_cancel' ordered]

theorem slice_append_slice {middle : Nat} (first : start ≤ middle) (second : middle ≤ stop) :
    t.slice start middle ++ t.slice middle stop = t.slice start stop := by
  have whole : stop - start = (middle - start) + (stop - middle) := by omega
  rw [slice, slice, slice, whole, List.take_add, List.drop_drop, Nat.add_sub_cancel' first]

theorem slice_append_drop (ordered : start ≤ stop) :
    t.slice start stop ++ t.drop stop = t.drop start := by
  have rest : t.drop stop = (t.drop start).drop (stop - start) := by
    rw [List.drop_drop, Nat.add_sub_cancel' ordered]
  rw [slice, rest, List.take_append_drop]

end Text

namespace Patch

variable (p : Patch)

/-- A patch alone is always applied. -/
theorem apply_singleton : apply p.source.text [p] = .ok (splice p.source.text p) := by
  simp [apply, sort, firstOverlap, stitch, stitchFrom, splice, Text.slice]

theorem blockStart_le_start : p.blockStart ≤ p.start := by
  rw [blockStart, lineRange_fst]
  exact p.source.startAt_lineAt_le p.start_inside

theorem stop_le_blockStop : p.stop ≤ p.blockStop := Nat.le_max_right _ _

theorem blockStart_le_blockStop : p.blockStart ≤ p.blockStop :=
  Nat.le_trans p.blockStart_le_start (Nat.le_trans p.ordered p.stop_le_blockStop)

/-- The old block ends with the content of the last touched line or, if the patch reaches
over the newline after it, where the next line starts. -/
theorem blockStop_cases :
    p.blockStop = p.source.endAt p.lineRange.2 ∨
      (p.lineRange.2 + 1 < p.source.lineCount ∧
        p.blockStop = p.source.startAt (p.lineRange.2 + 1)) := by
  rw [blockStop]
  rcases p.lineRange_ends with ⟨last, _⟩ | ⟨_, next, ends⟩
  · left
    have reached := p.source.le_endAt_lineAt p.inside
    rw [last] at reached
    exact Nat.max_eq_left reached
  · right
    have starts := p.source.startAt_next next
    have reached : p.source.endAt p.lineRange.2 ≤ p.stop := by omega
    exact ⟨next, (Nat.max_eq_right reached).trans ends⟩

/-- The text around the old block is the rest of the text. -/
theorem text_eq_oldBlock :
    p.source.text.take p.blockStart ++ p.oldBlock ++ p.source.text.drop p.blockStop =
      p.source.text := by
  rw [oldBlock, Text.take_append_slice _ p.blockStart_le_blockStop, List.take_append_drop]

/-- The new block in place of the old one is the edit that the patch makes. -/
theorem splice_eq_newBlock :
    splice p.source.text p =
      p.source.text.take p.blockStart ++ p.newBlock ++ p.source.text.drop p.blockStop := by
  rw [splice, newBlock, ← Text.take_append_slice _ p.blockStart_le_start,
    ← Text.slice_append_drop _ p.stop_le_blockStop]
  simp only [List.append_assoc]

/-- Where the blocks start and where the old one ends, as they are asked of the line
index, which refuses offsets and lines that do not exist. -/
def lookUpBlock : Except Fault (Nat × Int) := do
  let (first, last) ← p.lookUpLines
  let start ← p.source.lineStart first
  let stop ← p.source.lineEnd last
  .ok (start, max stop p.stop)

/-- The line index refuses nothing that a diff asks it. -/
theorem lookUpBlock_eq : p.lookUpBlock = .ok (p.blockStart, (p.blockStop : Int)) := by
  have starts := p.source.lineStart_natCast p.firstLine_present
  have ends := p.source.lineEnd_natCast p.lineRange_present
  rw [lookUpBlock, lookUpLines_eq]
  simp only [bind, Except.bind, starts, ends, blockStart, blockStop]
  congr 2
  omega

/-- Two offsets around a patch between which there are whole lines: the first is a line
start, and the second is the end of a line's content or the start of the line after it. -/
structure Encloses (start stop : Nat) : Prop where
  ordered : start ≤ stop
  before : start ≤ p.start
  after : p.stop ≤ stop
  begins : ∃ line : Nat, p.source.lineStart line = .ok start
  ends : ∃ line : Nat, p.source.lineEnd line = .ok (stop : Int) ∨
    (p.source.lineEnd line = .ok ((stop : Int) - 1) ∧
      p.source.lineStart (line + 1 : Nat) = .ok stop)

theorem encloses_block : p.Encloses p.blockStart p.blockStop where
  ordered := p.blockStart_le_blockStop
  before := p.blockStart_le_start
  after := p.stop_le_blockStop
  begins := ⟨p.lineRange.1, p.source.lineStart_natCast p.firstLine_present⟩
  ends := by
    have lineEnd := p.source.lineEnd_natCast p.lineRange_present
    refine ⟨p.lineRange.2, ?_⟩
    rcases p.blockStop_cases with ends | ⟨next, ends⟩
    · left
      rw [ends, lineEnd]
    · right
      have starts := p.source.startAt_next next
      rw [ends, p.source.lineStart_natCast next, lineEnd]
      refine ⟨?_, rfl⟩
      congr 1
      omega

/-- The full body of a diff: every line of the old block and every line of the new one. -/
theorem map_fragment_diffLines :
    p.diffLines.map DiffLine.fragment =
      p.oldBlock.displayLines.map (fun line => ⟨"class:removed", '-' :: line ++ ['\n']⟩) ++
        p.newBlock.displayLines.map fun line => ⟨"class:added", '+' :: line ++ ['\n']⟩ := by
  rw [diffLines, List.map_append, List.map_map, List.map_map]
  rfl

/-- A body that fits is shown as it is. -/
theorem truncate_of_le {limit : Nat} {body : List DiffLine} (fits : body.length ≤ limit) :
    truncate limit body = body := by
  rw [truncate, if_neg (Nat.not_lt.mpr fits)]

/-- A diff with room for all its lines shows them all. -/
theorem diff_of_le {limit : Int} (fits : (p.diffLines.length : Int) ≤ max 3 limit) :
    p.diff limit = p.diffHeader :: p.diffLines.map DiffLine.fragment := by
  have room : p.diffLines.length ≤ (max 3 limit).toNat := by omega
  rw [diff, diffBody, truncate_of_le room]

/-- The diff shown is the edit applied. There are two blocks of text and a range of whole
lines around the patch, such that the text with the old block in that range is the text
itself and the text with the new block there is the text after the patch; and with room
for all of them, the lines of the old block are shown as removed and the lines of the new
block as added. Whatever the room is, nothing that is asked on the way is refused. -/
theorem diff_shows_edit :
    ∃ (start stop : Nat) (old new : Text),
      p.lookUpBlock = .ok (start, (stop : Int)) ∧
      p.Encloses start stop ∧
      p.source.text.take start ++ old ++ p.source.text.drop stop = p.source.text ∧
      apply p.source.text [p] =
        .ok (p.source.text.take start ++ new ++ p.source.text.drop stop) ∧
      ∀ limit : Int,
        p.diffBy (.int limit) = .ok (p.diff limit) ∧
        (((old.displayLines.length + new.displayLines.length : Nat) : Int) ≤ max 3 limit →
          p.diff limit = p.diffHeader ::
            (old.displayLines.map (fun line => ⟨"class:removed", '-' :: line ++ ['\n']⟩) ++
              new.displayLines.map fun line => ⟨"class:added", '+' :: line ++ ['\n']⟩)) := by
  refine ⟨p.blockStart, p.blockStop, p.oldBlock, p.newBlock, p.lookUpBlock_eq, p.encloses_block,
    p.text_eq_oldBlock, ?_, ?_⟩
  · rw [apply_singleton, splice_eq_newBlock]
  · intro limit
    refine ⟨p.diffBy_int limit, ?_⟩
    intro fits
    have whole : (p.diffLines.length : Int) ≤ max 3 limit := by
      simpa [diffLines] using fits
    rw [p.diff_of_le whole, map_fragment_diffLines]

/-- A body that is too long for its room is cut into three: a front and a back that are
shown and together leave room for one line, and what is counted in that line. The front
is as long as the back or one line longer. -/
theorem exists_truncate_eq {limit : Nat} {body : List DiffLine} (long : limit < body.length)
    (room : 3 ≤ limit) :
    ∃ front middle back, body = front ++ middle ++ back ∧
      truncate limit body = front ++ .omitted middle.length :: back ∧
      front.length + back.length + 1 = limit ∧
      (front.length = back.length ∨ front.length = back.length + 1) := by
  obtain ⟨tail, tailSize⟩ : ∃ tail, (limit - 1) / 2 = tail := ⟨_, rfl⟩
  obtain ⟨head, headSize⟩ : ∃ head, limit - 1 - tail = head := ⟨_, rfl⟩
  obtain ⟨count, counted⟩ : ∃ count, body.length - head - tail = count := ⟨_, rfl⟩
  have back : body.length - tail = head + count := by omega
  have front : (body.take head).length = head := by
    rw [List.length_take]
    omega
  have middle : ((body.drop head).take count).length = count := by
    rw [List.length_take, List.length_drop]
    omega
  have rest : (body.drop (head + count)).length = tail := by
    rw [List.length_drop]
    omega
  refine ⟨body.take head, (body.drop head).take count, body.drop (head + count), ?_, ?_, ?_, ?_⟩
  · rw [← List.take_add, List.take_append_drop]
  · rw [truncate, if_pos long, middle]
    simp only [tailSize, headSize, counted, back, List.append_assoc, List.singleton_append]
  · omega
  · omega

/-- A diff is shortened in its middle only. A body of at most `max 3 limit` lines is shown
whole; of a longer one just as many lines are shown, the first and the last among them,
and one of these lines says how many are left out, at least two. -/
theorem truncation_exact (limit : Int) :
    ((p.diffLines.length : Int) ≤ max 3 limit →
        p.diff limit = p.diffHeader :: p.diffLines.map DiffLine.fragment) ∧
      (max 3 limit < (p.diffLines.length : Int) →
        (((p.diff limit).length : Int) = max 3 limit + 1) ∧
        ∃ front middle back : List DiffLine,
          p.diffLines = front ++ middle ++ back ∧
          p.diff limit = p.diffHeader ::
            (front.map DiffLine.fragment ++
              ⟨"class:omitted",
                ("... " ++ Text.ofNat middle.length ++ " line(s) omitted ...\n").toList⟩ ::
              back.map DiffLine.fragment) ∧
          1 ≤ front.length ∧ 2 ≤ middle.length ∧ 1 ≤ back.length ∧
          ((front.length + back.length + 1 : Nat) : Int) = max 3 limit ∧
          (front.length = back.length ∨ front.length = back.length + 1)) := by
  constructor
  · intro fits
    exact p.diff_of_le fits
  · intro long
    have tooLong : (max 3 limit).toNat < p.diffLines.length := by omega
    have atLeast : 3 ≤ (max 3 limit).toNat := by omega
    obtain ⟨front, middle, back, cut, shown, room, balanced⟩ := exists_truncate_eq tooLong atLeast
    have size := congrArg List.length cut
    simp only [List.length_append] at size
    have whole : p.diff limit = p.diffHeader ::
        (front.map DiffLine.fragment ++
          (DiffLine.omitted middle.length).fragment :: back.map DiffLine.fragment) := by
      rw [diff, diffBody, shown, List.map_append, List.map_cons]
    refine ⟨?_, front, middle, back, cut, whole, ?_⟩
    · rw [whole]
      simp only [List.length_cons, List.length_append, List.length_map]
      omega
    · omega

/-- Three lines are replaced by three others. -/
def rewritten : Patch :=
  ⟨⟨['o', '\n', 'p', '\n', 'q'], none⟩, 0, 5, ['x', '\n', 'y', '\n', 'z'], Nat.zero_le 5,
    Nat.le_of_ble_eq_true rfl⟩

/-- Of six lines the first and the last are shown when there is no room at all. -/
theorem rewritten_truncation_exact :
    max 3 0 < (rewritten.diffLines.length : Int) ∧
      ∃ front middle back : List DiffLine,
        rewritten.diffLines = front ++ middle ++ back ∧
        1 ≤ front.length ∧ 2 ≤ middle.length ∧ 1 ≤ back.length ∧
        ((front.length + back.length + 1 : Nat) : Int) = max 3 0 := by
  have long : max 3 0 < (rewritten.diffLines.length : Int) := by decide +kernel
  obtain ⟨_, front, middle, back, cut, _, first, omitted, last, room, _⟩ :=
    (rewritten.truncation_exact 0).2 long
  exact ⟨long, front, middle, back, cut, first, omitted, last, room⟩

end Patch

end Emend
