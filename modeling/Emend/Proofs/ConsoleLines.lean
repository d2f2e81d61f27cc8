import Emend.Proofs.Diffs
import Emend.Proofs.InputLines
import Emend.Proofs.MatchedPatches

/-!
# Lines with a call on the console

The pattern for calls on the console looks at one line at a time: it starts where
a line starts, nothing in it but its end is a newline, and it ends with the line.
So its matches in a text are the lines that hold such a call, and removing them
leaves the other lines as they are. The argument goes from line to line through
the scan of the text; inside of a line there is no place where the pattern could
start.
-/

namespace Emend

namespace Text

/-- The lines of a text, each with its newline; the last one may have none. -/
def wholeLines (t : Text) : List Text := InputLine.linesFrom [] t

/-- Lines with the offsets at which they start, if the first one starts at `offset`. -/
def placedFrom (offset : Nat) : List Text → List (Nat × Text)
  | [] => []
  | line :: lines => (offset, line) :: placedFrom (offset + line.length) lines

/-- The lines of a text with the offsets at which they start. -/
def placedLines (t : Text) : List (Nat × Text) := placedFrom 0 t.wholeLines

/-- A text is one line without a newline, or a line with a newline and another text. -/
theorem linesInduction {motive : Text → Prop} (last : ∀ u, '\n' ∉ u → motive u)
    (line : ∀ u rest, '\n' ∉ u → motive rest → motive (u ++ '\n' :: rest)) (t : Text) :
    motive t := by
  have begun : ∀ u, '\n' ∉ u → motive (u ++ t) := by
    induction t with
    | nil =>
      intro u single
      rw [List.append_nil]
      exact last u single
    | cons c rest inductionHypothesis =>
      intro u single
      by_cases newline : c = '\n'
      · rw [newline]
        exact line u rest single (inductionHypothesis [] List.not_mem_nil)
      · rw [← List.singleton_append, ← List.append_assoc]
        apply inductionHypothesis
        simp [single, Ne.symm newline]
  exact begun [] List.not_mem_nil

theorem wholeLines_newline {u : Text} (single : '\n' ∉ u) (rest : Text) :
    wholeLines (u ++ '\n' :: rest) = (u ++ ['\n']) :: wholeLines rest := by
  rw [wholeLines, InputLine.linesFrom_append u single]
  rfl

theorem linesFrom_last {u line : Text} (single : '\n' ∉ u) (filled : line.reverse ++ u ≠ []) :
    InputLine.linesFrom line u = [line.reverse ++ u] := by
  induction u generalizing line with
  | nil =>
    rw [List.append_nil] at filled ⊢
    rw [InputLine.linesFrom]
    intro empty
    exact filled (by rw [empty, List.reverse_nil])
  | cons c u inductionHypothesis =>
    obtain ⟨other, single⟩ := not_or.mp (mt List.mem_cons.mpr single)
    rw [InputLine.linesFrom, if_neg (Ne.symm other), inductionHypothesis single] <;> simp

theorem wholeLines_last {u : Text} (single : '\n' ∉ u) (filled : u ≠ []) : wholeLines u = [u] :=
  linesFrom_last single filled

theorem flatten_wholeLines (t : Text) : (wholeLines t).flatten = t :=
  InputLine.flatten_linesFrom [] t

/-- The lines of a text of which some are left out are the lines that are kept. -/
theorem wholeLines_filter (keep : Text → Bool) (t : Text) :
    wholeLines ((wholeLines t).filter keep).flatten = (wholeLines t).filter keep := by
  induction t using linesInduction with
  | last u single =>
    by_cases filled : u = []
    · rw [filled]
      rfl
    · rw [wholeLines_last single filled]
      by_cases kept : keep u = true
      · rw [List.filter_cons_of_pos kept, List.filter_nil, List.flatten_singleton,
          wholeLines_last single filled]
      · rw [List.filter_cons_of_neg kept]
        rfl
  | line u rest single inductionHypothesis =>
    rw [wholeLines_newline single]
    by_cases kept : keep (u ++ ['\n']) = true
    · rw [List.filter_cons_of_pos kept, List.flatten_cons, List.append_assoc,
        List.singleton_append, wholeLines_newline single, inductionHypothesis]
    · rw [List.filter_cons_of_neg kept, inductionHypothesis]

theorem map_snd_placedFrom (offset : Nat) (lines : List Text) :
    (placedFrom offset lines).map Prod.snd = lines := by
  induction lines generalizing offset with
  | nil => rfl
  | cons line lines inductionHypothesis => rw [placedFrom, List.map_cons, inductionHypothesis]

/-- The first newline of a text is in one place only. -/
theorem eq_of_append_newline {u v rest other : Text} (first : '\n' ∉ u) (second : '\n' ∉ v)
    (same : u ++ '\n' :: rest = v ++ '\n' :: other) : u = v ∧ rest = other := by
  have lasts {w : Text} (single : '\n' ∉ w) : ∀ c ∈ w, c ≠ '\n' :=
    fun c member newline => single (newline ▸ member)
  obtain ⟨same, -, further⟩ := stretch_unique (lasts first) (lasts second) (by simp) (by simp) same
  exact ⟨same, further⟩

end Text

/-- A line that holds a call on the console and nothing else. -/
def HoldsCall (line : Text) : Prop :=
  ∃ (call : ConsoleCall) (ending : Text), EndsLine ending [] ∧ line = call.text ++ ending

namespace ConsoleCall

/-- A call has no newline of its own. -/
theorem newline_not_mem (call : ConsoleCall) : '\n' ∉ call.text := by
  intro member
  have word : Text.isWord '\n' = false := by decide +kernel
  have indent {u : Text} (blank : u.AllIndent) (newline : '\n' ∈ u) : False := by
    rcases blank _ newline with same | same <;> cases same
  simp only [text, CallHead.line, opened, List.mem_append, List.mem_cons] at member
  rcases member with member | member | member | impossible | member | impossible | member | member
  · exact indent call.indent_blank member
  · revert member
    decide
  · rw [call.name_word _ member] at word
    cases word
  · cases impossible
  · exact (call.arguments_unbroken _ member).2 rfl
  · cases impossible
  · rcases call.one_semicolon with single | single <;> simp [single] at member
  · exact indent call.trail_blank member

end ConsoleCall

namespace HoldsCall

variable {text u rest : Text} {s t : Spot}

theorem not_nil : ¬ HoldsCall [] := by
  rintro ⟨call, ending, -, empty⟩
  have long := call.line_length_pos call.opened
  have short := congrArg List.length empty
  rw [List.length_nil, ConsoleCall.text, List.length_append] at short
  omega

/-- Where a line with a newline starts, the pattern reads that line if it holds a call. -/
theorem mem_ways_newline (single : '\n' ∉ u) (starts : Anchor.holds s .lineStart = true)
    (follows : s.rest = u ++ '\n' :: rest) :
    t ∈ Pattern.consoleLine.ways text s ↔
      HoldsCall (u ++ ['\n']) ∧ s.Reads (u ++ ['\n']) t := by
  rw [Pattern.mem_ways_consoleLine]
  constructor
  · rintro ⟨-, call, ending, reads, ends⟩
    have clean := call.newline_not_mem
    have split := follows.symm.trans reads.rest
    generalize remains : t.rest = tail at ends split
    cases ends with
    | newline =>
      rw [List.append_assoc] at split
      obtain ⟨rfl, -⟩ := Text.eq_of_append_newline single clean split
      exact ⟨⟨call, _, .newline, rfl⟩, reads⟩
    | returned =>
      have returned : '\n' ∉ call.text ++ ['\r'] := by simp [clean]
      have shape : u ++ '\n' :: rest = (call.text ++ ['\r']) ++ '\n' :: tail := by
        rw [split]
        simp
      obtain ⟨rfl, -⟩ := Text.eq_of_append_newline single returned shape
      rw [List.append_assoc]
      exact ⟨⟨call, _, .returned, rfl⟩, reads⟩
    | none =>
      rw [List.append_nil, List.append_nil] at split
      exact absurd (split ▸ List.mem_append_right u List.mem_cons_self) clean
  · rintro ⟨⟨call, ending, ends, whole⟩, reads⟩
    refine ⟨starts, call, ending, whole ▸ reads, ?_⟩
    cases ends with
    | newline => exact .newline
    | returned => exact .returned
    | none =>
      rw [List.append_nil] at whole
      exact absurd (whole ▸ List.mem_append_right u List.mem_cons_self) call.newline_not_mem

/-- Where the last line starts, the pattern reads that line if it holds a call. -/
theorem mem_ways_last (single : '\n' ∉ u) (starts : Anchor.holds s .lineStart = true)
    (follows : s.rest = u) :
    t ∈ Pattern.consoleLine.ways text s ↔ HoldsCall u ∧ s.Reads u t := by
  subst follows
  rw [Pattern.mem_ways_consoleLine]
  constructor
  · rintro ⟨-, call, ending, reads, ends⟩
    have split := reads.rest
    generalize remains : t.rest = tail at ends split
    cases ends with
    | newline =>
      rw [split] at single
      exact absurd (by simp) single
    | returned =>
      rw [split] at single
      exact absurd (by simp) single
    | none =>
      rw [List.append_nil] at split
      exact ⟨⟨call, [], .none, split⟩, split ▸ reads⟩
  · rintro ⟨⟨call, ending, ends, whole⟩, reads⟩
    have ended : t.rest = [] := List.append_right_eq_self.mp reads.rest.symm
    refine ⟨starts, call, ending, whole ▸ reads, ?_⟩
    rw [ended]
    exact ends

end HoldsCall

/-- A line holds a call if the pattern can read the line by itself to its end. -/
theorem holdsCall_iff (line : Text) :
    ((Pattern.consoleLine.ways line (line.spot 0)).any fun t => t.rest.isEmpty) = true ↔
      HoldsCall line := by
  rw [List.any_eq_true]
  constructor
  · rintro ⟨t, way, ended⟩
    rw [List.isEmpty_iff] at ended
    obtain ⟨-, call, ending, reads, ends⟩ := Pattern.mem_ways_consoleLine.mp way
    refine ⟨call, ending, ended ▸ ends, ?_⟩
    have whole := reads.rest
    rwa [ended, List.append_nil] at whole
  · rintro ⟨call, ending, ends, whole⟩
    have follows : (line.spot 0).rest = (call.text ++ ending) ++ [] := by
      rw [List.append_nil, ← whole]
      rfl
    obtain ⟨t, reads, ended⟩ := Spot.exists_reads follows
    refine ⟨t, Pattern.mem_ways_consoleLine.mpr ⟨rfl, call, ending, reads, ended ▸ ends⟩, ?_⟩
    rw [ended]
    rfl

instance (line : Text) : Decidable (HoldsCall line) := decidable_of_iff _ (holdsCall_iff line)

namespace Suggestor

section Scanning

variable {front u rest : Text}

/-- A text that another line can follow: it is empty or ends with a newline. -/
def LineStart (front : Text) : Prop := front = [] ∨ ∃ before, front = before ++ ['\n']

theorem LineStart.holds (begun : LineStart front) (rest : Text) :
    Anchor.holds ((front ++ rest).spot front.length) .lineStart = true := by
  rw [Text.spot_append]
  rcases begun with rfl | ⟨before, rfl⟩
  · rfl
  · simp [Anchor.holds]

/-- Inside of a line the pattern cannot start. -/
theorem ways_inside (single : '\n' ∉ u) {k : Nat} (after : front.length < k)
    (within : k ≤ front.length + u.length) :
    Pattern.consoleLine.ways (front ++ (u ++ rest)) ((front ++ (u ++ rest)).spot k) = [] := by
  rw [List.eq_nil_iff_forall_not_mem]
  intro t way
  obtain ⟨starts, -⟩ := Pattern.mem_ways_consoleLine.mp way
  have width : (u.take (k - front.length)).length = k - front.length := by
    rw [List.length_take]
    omega
  rcases List.eq_nil_or_concat (u.take (k - front.length)) with empty | ⟨begun, c, ends⟩
  · rw [empty, List.length_nil] at width
    omega
  · rw [List.concat_eq_append] at ends
    have place : k = (front ++ (begun ++ [c])).length := by
      rw [List.length_append, ← ends, width]
      omega
    have split : front ++ (u ++ rest) =
        (front ++ (begun ++ [c])) ++ (u.drop (k - front.length) ++ rest) := by
      rw [← ends, List.append_assoc, ← List.append_assoc (u.take _), List.take_append_drop]
    have inside : c ∈ u := by
      apply List.mem_of_mem_take
      rw [ends]
      exact List.mem_append_right begun List.mem_cons_self
    rw [split, place, Text.spot_append] at starts
    have newline : c = '\n' := by simpa [Anchor.holds] using starts
    exact single (newline ▸ inside)

theorem ways_at_end (text : Text) : Pattern.consoleLine.ways text (text.spot text.length) = [] := by
  rw [List.eq_nil_iff_forall_not_mem]
  intro t way
  obtain ⟨-, call, ending, reads, -⟩ := Pattern.mem_ways_consoleLine.mp way
  have long := call.line_length_pos call.opened
  have short := congrArg List.length reads.rest
  simp only [Text.spot, ConsoleCall.text, List.drop_length, List.length_nil,
    List.length_append] at short
  omega

/-- The ranges of matches. -/
def ranges (found : List Match) : List (Nat × Nat) := found.map fun m => (m.start, m.stop)

/-- The range of a line with the offset at which it starts. -/
def lineRange (line : Nat × Text) : Nat × Nat := (line.1, line.1 + line.2.length)

/-- The ranges of those lines with their offsets that hold a call. -/
def callRanges (lines : List (Nat × Text)) : List (Nat × Nat) :=
  (lines.filter fun line => HoldsCall line.2).map lineRange

theorem callRanges_cons (offset : Nat) (line : Text) (lines : List (Nat × Text)) :
    callRanges ((offset, line) :: lines) =
      (if HoldsCall line then [(offset, offset + line.length)] else []) ++ callRanges lines := by
  by_cases holds : HoldsCall line
  · simp [callRanges, lineRange, holds]
  · simp [callRanges, holds]

/-- A scan from the start of a line goes on from its end, with a match of the whole
line if that holds a call and without any match in the line if not. -/
theorem scan_line {line : Text} {mayBeEmpty : Bool} {found : List Match}
    (here : ∀ t, t ∈ Pattern.consoleLine.ways (front ++ (line ++ rest))
      ((front ++ (line ++ rest)).spot front.length) ↔
        HoldsCall line ∧ ((front ++ (line ++ rest)).spot front.length).Reads line t)
    (inside : ∀ k, front.length < k → k < front.length + line.length →
      Pattern.consoleLine.ways (front ++ (line ++ rest)) ((front ++ (line ++ rest)).spot k) = [])
    (scans : Pattern.Scans (front ++ (line ++ rest)) Pattern.consoleLine front.length mayBeEmpty
      found) :
    ∃ later leave, Pattern.Scans (front ++ line ++ rest) Pattern.consoleLine
        (front ++ line).length leave later ∧
      ranges found =
        (if HoldsCall line then [(front.length, front.length + line.length)] else []) ++
          ranges later := by
  have follows : ((front ++ (line ++ rest)).spot front.length).rest = line ++ rest := by
    rw [Text.spot_append]
  rw [List.append_assoc, List.length_append]
  by_cases holds : HoldsCall line
  · obtain ⟨t, reads, -⟩ := Spot.exists_reads follows
    have stop : t.offset = front.length + line.length := reads.offset
    have filled : 0 < line.length := by
      apply List.length_pos_iff.mpr
      rintro rfl
      exact HoldsCall.not_nil holds
    obtain ⟨later, rfl, further⟩ := scans.eq_cons (by simp) ((here t).mpr ⟨holds, reads⟩)
      (fun t' way => ((here t').mp way).2.unique reads) (by omega)
    rw [stop] at further
    exact ⟨later, true, further, by rw [if_pos holds, stop]; rfl⟩
  · have clear : ∀ k, front.length ≤ k → k < front.length + line.length →
        Pattern.consoleLine.ways (front ++ (line ++ rest))
          ((front ++ (line ++ rest)).spot k) = [] := by
      intro k later before
      by_cases start : k = front.length
      · rw [start, List.eq_nil_iff_forall_not_mem]
        intro t way
        exact holds ((here t).mp way).1
      · exact inside k (by omega) before
    exact ⟨found, _, scans.skip (Nat.le_add_right _ _) clear, by rw [if_neg holds]; rfl⟩

/-- A scan from the start of a line finds the lines that hold a call. The induction
is on the lines that are left. -/
theorem ranges_of_scans {mayBeEmpty : Bool} {found : List Match} (begun : LineStart front)
    (scans : Pattern.Scans (front ++ rest) Pattern.consoleLine front.length mayBeEmpty found) :
    ranges found = callRanges (Text.placedFrom front.length rest.wholeLines) := by
  induction rest using Text.linesInduction generalizing front mayBeEmpty found with
  | last u single =>
    have starts := begun.holds (u ++ [])
    have follows : ((front ++ (u ++ [])).spot front.length).rest = u := by
      rw [Text.spot_append, List.append_nil]
    rw [← List.append_nil u] at scans
    obtain ⟨later, leave, further, found⟩ := scan_line
      (fun t => HoldsCall.mem_ways_last single starts follows)
      (fun k after before => ways_inside single after (Nat.le_of_lt before)) scans
    rw [List.append_nil] at further
    have nothing : later = [] := by
      apply further.eq_nil
      intro k after within
      rw [Nat.le_antisymm within after]
      exact ways_at_end _
    rw [found, nothing]
    by_cases filled : u = []
    · rw [filled, if_neg HoldsCall.not_nil]
      rfl
    · rw [Text.wholeLines_last single filled, Text.placedFrom, callRanges_cons]
      rfl
  | line u rest single inductionHypothesis =>
    have split : u ++ '\n' :: rest = (u ++ ['\n']) ++ rest := by simp
    have starts := begun.holds ((u ++ ['\n']) ++ rest)
    have follows : ((front ++ ((u ++ ['\n']) ++ rest)).spot front.length).rest =
        u ++ '\n' :: rest := by
      rw [Text.spot_append, split]
    rw [split] at scans
    obtain ⟨later, leave, further, found⟩ := scan_line
      (fun t => HoldsCall.mem_ways_newline single starts follows)
      (fun k after before => by
        rw [List.length_append, List.length_singleton] at before
        rw [List.append_assoc]
        exact ways_inside single after (by omega)) scans
    have closed : LineStart (front ++ (u ++ ['\n'])) :=
      .inr ⟨front ++ u, (List.append_assoc front u ['\n']).symm⟩
    have width : (front ++ (u ++ ['\n'])).length = front.length + (u ++ ['\n']).length :=
      List.length_append
    rw [found, Text.wholeLines_newline single, Text.placedFrom, callRanges_cons,
      inductionHypothesis closed further, width]

end Scanning

/-- The ranges of the patches are those of the lines that hold a call. -/
theorem removeConsole_edits (source : Source) :
    (removeConsole.proposed source).map Patch.edit =
        (source.text.placedLines.filter fun line => HoldsCall line.2).map
          (fun line => (line.1, line.1 + line.2.length, [])) ∧
      ((removeConsole.proposals source).harvest {}).fault = none := by
  have found : ranges (Expression.consoleLine.findAll source.text) =
      callRanges source.text.placedLines :=
    ranges_of_scans (.inl rfl) (Pattern.findAll_scans _ source.text)
  have picked : ∀ m ∈ Expression.consoleLine.findAll source.text,
      Expression.consoleLine.spanOf (.index 0) m = .ok (some (m.start, m.stop)) ∧
        m.start ≤ m.stop ∧ m.stop ≤ m.stop := by
    intro m member
    exact ⟨spanOf_zero _ m, (Pattern.findAll_within member).ordered, Nat.le_refl _⟩
  have proposes : (removeConsole.proposed source).map Patch.edit =
      (Expression.consoleLine.findAll source.text).map (fun m => (m.start, m.stop, [])) ∧
        ((removeConsole.proposals source).harvest {}).fault = none :=
    proposed_of_picked (fun m => (m.start, m.stop)) (fun _ => []) picked (fun _ _ => rfl)
  refine ⟨proposes.1.trans ?_, proposes.2⟩
  have ends := congrArg (List.map fun range => (range.1, range.2, ([] : Text))) found
  simpa [ranges, callRanges, lineRange, Function.comp_def] using ends

/-- Stitching without some of the lines leaves what is before them and the other lines.
The induction is on the lines; the cursor is where the last line that is left out ends. -/
theorem stitchFrom_without {text front : Text} {lines : List Text} (removed : Text → Bool)
    {patches : List Patch} {cursor : Nat} (whole : text = front ++ lines.flatten)
    (behind : cursor ≤ front.length)
    (edits : patches.map Patch.edit =
      ((Text.placedFrom front.length lines).filter fun line => removed line.2).map
        (fun line => (line.1, line.1 + line.2.length, []))) :
    Patch.stitchFrom text cursor patches =
      text.slice cursor front.length ++ (lines.filter fun line => !removed line).flatten := by
  induction lines generalizing front patches cursor with
  | nil =>
    obtain rfl : patches = [] := List.map_eq_nil_iff.mp edits
    rw [List.flatten_nil, List.append_nil] at whole
    rw [Patch.stitchFrom, whole, List.filter_nil, List.flatten_nil, List.append_nil, Text.slice,
      List.take_of_length_le (Nat.le_of_eq List.length_drop)]
  | cons line lines inductionHypothesis =>
    rw [List.flatten_cons] at whole
    have further : text = (front ++ line) ++ lines.flatten := by rw [whole, List.append_assoc]
    have here : text.slice front.length (front.length + line.length) = line := by
      rw [whole, Text.slice, List.drop_left, Nat.add_sub_cancel_left, List.take_left]
    have next : (front ++ line).length = front.length + line.length := List.length_append
    rw [Text.placedFrom, ← next] at edits
    by_cases out : removed line = true
    · rw [List.filter_cons, if_pos out, List.map_cons] at edits
      obtain ⟨p, rest, rfl, edit, later⟩ := List.map_eq_cons_iff.mp edits
      have start : p.start = front.length := congrArg (fun data => data.1) edit
      have stop : p.stop = (front ++ line).length :=
        (congrArg (fun data => data.2.1) edit).trans next.symm
      have new : p.replacement = [] := congrArg (fun data => data.2.2) edit
      rw [Patch.stitchFrom, start, stop, new, inductionHypothesis further (Nat.le_refl _) later,
        Text.slice_self, List.filter_cons_of_neg (by simp [out]), List.append_nil,
        List.nil_append]
    · rw [List.filter_cons, if_neg out] at edits
      have ahead : cursor ≤ (front ++ line).length := by omega
      rw [inductionHypothesis further ahead edits, List.filter_cons_of_pos (by simp [out]), next,
        ← Text.slice_append_slice text behind (Nat.le_add_right _ _), here, List.flatten_cons,
        List.append_assoc]

/-- A line with its offset is what the text has there. -/
theorem slice_of_mem_placedFrom {text front : Text} {lines : List Text} {line : Nat × Text}
    (whole : text = front ++ lines.flatten) (member : line ∈ Text.placedFrom front.length lines) :
    text.slice line.1 (line.1 + line.2.length) = line.2 := by
  induction lines generalizing front with
  | nil => cases member
  | cons first lines inductionHypothesis =>
    rw [List.flatten_cons] at whole
    rw [Text.placedFrom, ← List.length_append] at member
    rcases List.mem_cons.mp member with rfl | member
    · rw [whole, Text.slice, List.drop_left, Nat.add_sub_cancel_left, List.take_left]
    · exact inductionHypothesis (by rw [whole, List.append_assoc]) member

/-- The patches of the lines that hold a call, each with the line that it replaces. -/
theorem removeConsole_lines (source : Source) :
    (removeConsole.proposed source).map (fun p => (p.start, p.replaced)) =
      source.text.placedLines.filter fun line => HoldsCall line.2 := by
  have native : ∀ p ∈ removeConsole.proposed source,
      (p.start, p.replaced) = (p.edit.1, source.text.slice p.edit.1 p.edit.2.1) := by
    intro p proposed
    rw [Patch.replaced, of_mem_proposed proposed]
    rfl
  have whole : source.text = [] ++ source.text.wholeLines.flatten :=
    (Text.flatten_wholeLines source.text).symm
  have sliced : ∀ line ∈ source.text.placedLines.filter (fun line => HoldsCall line.2),
      (line.1, source.text.slice line.1 (line.1 + line.2.length)) = line := by
    intro line member
    rw [slice_of_mem_placedFrom whole (List.mem_of_mem_filter member)]
  calc (removeConsole.proposed source).map (fun p => (p.start, p.replaced))
      = ((removeConsole.proposed source).map Patch.edit).map
          (fun edit => (edit.1, source.text.slice edit.1 edit.2.1)) := by
        rw [List.map_map]
        exact List.map_congr_left native
    _ = (source.text.placedLines.filter fun line => HoldsCall line.2).map
          (fun line => (line.1, source.text.slice line.1 (line.1 + line.2.length))) := by
        rw [(removeConsole_edits source).1, List.map_map]
        rfl
    _ = source.text.placedLines.filter fun line => HoldsCall line.2 :=
        (List.map_congr_left sliced).trans (List.map_id' _)

/-- Removing the calls leaves the other lines. -/
theorem removeConsole_apply (source : Source) :
    Patch.apply source.text (removeConsole.proposed source) =
      .ok (source.text.wholeLines.filter fun line => ¬ HoldsCall line).flatten := by
  have compatible : Patch.Compatible source.text (removeConsole.proposed source) :=
    matching_whole_compatible _ _ _ _ _ _
  have native : ∀ p ∈ removeConsole.proposed source, p.source.text = source.text := by
    intro p proposed
    rw [of_mem_proposed proposed]
  have whole : source.text = [] ++ source.text.wholeLines.flatten :=
    (Text.flatten_wholeLines source.text).symm
  have stitched := stitchFrom_without (fun line => HoldsCall line) whole (Nat.le_refl 0)
    (removeConsole_edits source).1
  rw [compatible.apply_eq native, Patch.stitch, stitched, List.length_nil, Text.slice_self]
  simp

/-- Removing calls on the console is a filter on lines. The patches are those of the
lines that hold a call and nothing else, each over its whole line with the end of the
line; applying them leaves the other lines, in order; and of these lines none is
proposed again. -/
theorem console_removal_filters_lines (source : Source) :
    ((removeConsole.proposals source).harvest {}).fault = none ∧
      (removeConsole.proposed source).map (fun p => (p.start, p.replaced)) =
        source.text.placedLines.filter (fun line => HoldsCall line.2) ∧
      Patch.apply source.text (removeConsole.proposed source) =
        .ok (source.text.wholeLines.filter fun line => ¬ HoldsCall line).flatten ∧
      ∀ url, removeConsole.proposed
        ⟨(source.text.wholeLines.filter fun line => ¬ HoldsCall line).flatten, url⟩ = [] := by
  refine ⟨(removeConsole_edits source).2, removeConsole_lines source,
    removeConsole_apply source, ?_⟩
  intro url
  rw [← List.map_eq_nil_iff, removeConsole_lines, List.filter_eq_nil_iff]
  intro line member
  have among := List.mem_map_of_mem (f := Prod.snd) member
  rw [Text.placedLines, Text.map_snd_placedFrom, Text.wholeLines_filter] at among
  simpa using List.of_mem_filter among

end Suggestor

end Emend
