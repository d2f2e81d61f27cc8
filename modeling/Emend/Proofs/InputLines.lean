import Emend.Proofs.Agreement
import Emend.Proofs.Sequence

/-!
# Input as lines

An input stream is a text, and it is read line by line. Much of the text says
nothing: a line that is no answer is asked again, a blank line is the default
answer, it does not matter whether a carriage return stands before a newline, and
the end of the input is the answer to quit. A run has the same outcome on texts
that differ in such ways.

All this is about texts without an unfinished line. Such a text is the same as the
list of its lines, and what is heard of it is decided line by line.
-/

namespace Emend

namespace InputLine

/-- The input lines of a stream. -/
def ofStream (t : Text) : List InputLine := (linesFrom [] t).map .text

/-- A stream without an unfinished line: it is empty or ends with a newline. -/
def Complete (t : Text) : Prop := t.getLastD '\n' = '\n'

instance (t : Text) : Decidable (Complete t) := inferInstanceAs (Decidable (_ = _))

/-- A line with its newline. -/
def IsLine (line : Text) : Prop := ∃ body, '\n' ∉ body ∧ line = body ++ ['\n']

/-- A newline finishes the current line. -/
theorem linesFrom_append (body : Text) (single : '\n' ∉ body) (line rest : Text) :
    linesFrom line (body ++ '\n' :: rest) =
      (line.reverse ++ body ++ ['\n']) :: linesFrom [] rest := by
  induction body generalizing line with
  | nil => simp [linesFrom]
  | cons c body inductionHypothesis =>
    obtain ⟨other, single⟩ := not_or.mp (mt List.mem_cons.mpr single)
    rw [List.cons_append, linesFrom, if_neg (Ne.symm other), inductionHypothesis single]
    simp

/-- Lines one after the other are read as these lines. -/
theorem linesFrom_flatten (lines : List Text) (each : ∀ line ∈ lines, IsLine line) (rest : Text) :
    linesFrom [] (lines.flatten ++ rest) = lines ++ linesFrom [] rest := by
  induction lines with
  | nil => rfl
  | cons line lines inductionHypothesis =>
    obtain ⟨body, single, rfl⟩ := each line List.mem_cons_self
    have further := inductionHypothesis fun line member => each line (List.mem_cons_of_mem _ member)
    rw [List.flatten_cons, List.append_assoc, List.append_assoc, List.singleton_append,
      linesFrom_append body single, further]
    rfl

theorem linesFrom_lines (lines : List Text) (each : ∀ line ∈ lines, IsLine line) :
    linesFrom [] lines.flatten = lines := by
  have whole := linesFrom_flatten lines each []
  rwa [List.append_nil, linesFrom, List.append_nil] at whole

/-- Reading lines loses nothing. -/
theorem flatten_linesFrom (line t : Text) : (linesFrom line t).flatten = line.reverse ++ t := by
  fun_induction linesFrom line t with
  | case1 => rfl
  | case2 => simp
  | case3 line rest inductionHypothesis => simp [inductionHypothesis]
  | case4 line c rest other inductionHypothesis => simp [inductionHypothesis]

theorem mem_of_mem_line {t line : Text} {c : Char} (among : line ∈ linesFrom [] t)
    (member : c ∈ line) : c ∈ t := by
  have present : c ∈ (linesFrom [] t).flatten := List.mem_flatten.mpr ⟨line, among, member⟩
  rwa [flatten_linesFrom] at present

/-- The lines that are read all end with a newline if the text does. Here `last` is
the character before the text, and a newline only if no line has been begun. -/
theorem isLine_of_mem_linesFrom {line t found : Text} {last : Char} (single : '\n' ∉ line)
    (begun : last = '\n' → line = []) (ends : t.getLastD last = '\n')
    (member : found ∈ linesFrom line t) : IsLine found := by
  induction t generalizing line last with
  | nil =>
    rw [begun ends] at member
    cases member
  | cons c rest inductionHypothesis =>
    rw [List.getLastD_cons] at ends
    rw [linesFrom] at member
    by_cases newline : c = '\n'
    · rw [if_pos newline] at member
      rcases List.mem_cons.mp member with rfl | member
      · exact ⟨line.reverse, by simpa using single, by simp [newline]⟩
      · exact inductionHypothesis (by simp) (fun _ => rfl) ends member
    · rw [if_neg newline] at member
      have single' : '\n' ∉ c :: line := by simp [single, Ne.symm newline]
      exact inductionHypothesis single' (fun same => absurd same newline) ends member

namespace Complete

variable {t : Text}

theorem isLine (complete : Complete t) {line : Text} (member : line ∈ linesFrom [] t) :
    IsLine line :=
  isLine_of_mem_linesFrom (by simp) (fun _ => rfl) complete member

/-- What stands behind a complete text does not change its lines. -/
theorem linesFrom_append (complete : Complete t) (rest : Text) :
    linesFrom [] (t ++ rest) = linesFrom [] t ++ linesFrom [] rest := by
  have split := linesFrom_flatten (linesFrom [] t) (fun _ => complete.isLine) rest
  rw [flatten_linesFrom] at split
  exact split

theorem ofStream_append (complete : Complete t) (rest : Text) :
    ofStream (t ++ rest) = ofStream t ++ ofStream rest := by
  rw [ofStream, complete.linesFrom_append, List.map_append]
  rfl

theorem of_lines {lines : List Text} (each : ∀ line ∈ lines, IsLine line) :
    Complete lines.flatten := by
  rcases List.eq_nil_or_concat lines with rfl | ⟨front, line, rfl⟩
  · rfl
  · obtain ⟨body, -, rfl⟩ := each line (by simp)
    simp [Complete, List.getLastD_eq_getLast?]

end Complete

/-- Whether a line says nothing: it is neither blank nor one of the answers. -/
def isIdle (line : Text) : Bool :=
  !(stripped line ∈ [[], ['y'], ['n'], ['A'], ['q']])

/-- The text without the lines that say nothing. -/
def withoutIdle (t : Text) : Text :=
  ((linesFrom [] t).filter fun line => !isIdle line).flatten

/-- A line with the default answer written on it if it is blank. -/
def filled (defaultYes : Bool) (line : Text) : Text :=
  if stripped line = [] then Review.defaultAnswer defaultYes ++ line else line

/-- The text with the default answer on each blank line. -/
def withDefaults (defaultYes : Bool) (t : Text) : Text :=
  ((linesFrom [] t).map (filled defaultYes)).flatten

/-- The text with a carriage return before some of its newlines. -/
inductive Widened : Text → Text → Prop where
  | nil : Widened [] []
  | keep (c : Char) {t u : Text} : Widened t u → Widened (c :: t) (c :: u)
  | widen {t u : Text} : Widened t u → Widened ('\n' :: t) ('\r' :: '\n' :: u)

/-- The ways to rewrite an input. -/
inductive Rewrite (defaultYes : Bool) (t : Text) : Text → Prop where
  | dropIdle : Rewrite defaultYes t (withoutIdle t)
  | fillBlank : Rewrite defaultYes t (withDefaults defaultYes t)
  | widen {u : Text} : Widened t u → Rewrite defaultYes t u
  | quit : Rewrite defaultYes t (t ++ ['q', '\n'])

theorem mem_of_mem_stripped {line : Text} {c : Char} (member : c ∈ stripped line) : c ∈ line := by
  rw [stripped, Text.trimRight, List.mem_reverse] at member
  exact List.mem_reverse.mp ((List.dropWhile_sublist _).subset member)

/-- A keyboard without the key that interrupts is a stream. -/
theorem ofKeys_eq_ofStream {t : Text} (uninterrupted : '\x03' ∉ t) : ofKeys t = ofStream t := by
  apply List.map_congr_left
  intro line member
  rw [if_neg]
  intro word
  have present : '\x03' ∈ line := mem_of_mem_stripped (by simp [word])
  exact uninterrupted (mem_of_mem_line member present)

theorem stripped_append_of_blank {line : Text} (blank : stripped line = []) (front : Text) :
    stripped (front ++ line) = stripped front := by
  simp only [stripped, Text.trimRight, List.reverse_eq_nil_iff] at blank ⊢
  rw [List.reverse_append, List.dropWhile_append, blank]
  rfl

theorem stripped_append_return (front : Text) :
    stripped (front ++ ['\r', '\n']) = stripped (front ++ ['\n']) := by
  rw [stripped_append_of_blank (by decide), stripped_append_of_blank (by decide)]

end InputLine

namespace Answers

open InputLine

variable {defaultYes : Bool} {t u : Text}

/-- What is heard of a text, line by line. -/
def spoken (defaultYes : Bool) (lines : List Text) : List Decision :=
  lines.filterMap fun line => ofLine defaultYes (.text line)

theorem spoken_cons (defaultYes : Bool) (line : Text) (lines : List Text) :
    spoken defaultYes (line :: lines) =
      (ofLine defaultYes (.text line)).toList ++ spoken defaultYes lines := by
  rw [spoken, List.filterMap_cons]
  cases ofLine defaultYes (.text line) <;> rfl

theorem spoken_append (defaultYes : Bool) (lines lines' : List Text) :
    spoken defaultYes (lines ++ lines') = spoken defaultYes lines ++ spoken defaultYes lines' :=
  List.filterMap_append

theorem heard_ofStream (defaultYes : Bool) (t : Text) (place : Nat) :
    heard defaultYes (ofStream t) place =
      (spoken defaultYes (linesFrom [] t)).getD place .quit := by
  rw [heard, ofStream, List.filterMap_map]
  rfl

/-- Only the words on a line count. -/
theorem ofLine_congr {line line' : Text} (same : stripped line = stripped line') :
    ofLine defaultYes (.text line) = ofLine defaultYes (.text line') := by
  simp only [ofLine, same]

theorem ofLine_of_isIdle {line : Text} (idle : isIdle line = true) :
    ofLine defaultYes (.text line) = none := by
  simp only [isIdle, Bool.not_eq_true', decide_eq_false_iff_not, List.mem_cons, List.not_mem_nil,
    or_false, not_or] at idle
  obtain ⟨notBlank, notYes, notNo, notAll, notQuit⟩ := idle
  simp only [ofLine, if_neg notBlank, if_neg notYes, if_neg notNo, if_neg notAll, if_neg notQuit]

theorem ofLine_filled (line : Text) :
    ofLine defaultYes (.text (filled defaultYes line)) = ofLine defaultYes (.text line) := by
  by_cases blank : stripped line = []
  · have word : stripped (filled defaultYes line) = Review.defaultAnswer defaultYes := by
      rw [filled, if_pos blank, stripped_append_of_blank blank]
      cases defaultYes <;> decide
    simp only [ofLine, word, blank]
    cases defaultYes <;> rfl
  · rw [filled, if_neg blank]

theorem spoken_withoutIdle (complete : Complete t) :
    spoken defaultYes (linesFrom [] (withoutIdle t)) = spoken defaultYes (linesFrom [] t) := by
  have lines := linesFrom_lines ((linesFrom [] t).filter fun line => !isIdle line)
    (fun line member => complete.isLine (List.mem_filter.mp member).1)
  rw [withoutIdle, lines, spoken, spoken, List.filterMap_filter]
  congr 1
  funext line
  cases idle : isIdle line with
  | false => rfl
  | true => exact (ofLine_of_isIdle idle).symm

theorem isLine_filled {line : Text} (whole : IsLine line) : IsLine (filled defaultYes line) := by
  obtain ⟨body, single, rfl⟩ := whole
  rw [filled]
  split
  · refine ⟨Review.defaultAnswer defaultYes ++ body, ?_, (List.append_assoc _ _ _).symm⟩
    cases defaultYes <;> simpa [Review.defaultAnswer] using single
  · exact ⟨body, single, rfl⟩

theorem isLine_of_mem_filled (complete : Complete t) {line : Text}
    (member : line ∈ (linesFrom [] t).map (filled defaultYes)) : IsLine line := by
  obtain ⟨line, among, rfl⟩ := List.mem_map.mp member
  exact isLine_filled (complete.isLine among)

theorem spoken_withDefaults (complete : Complete t) :
    spoken defaultYes (linesFrom [] (withDefaults defaultYes t)) =
      spoken defaultYes (linesFrom [] t) := by
  have lines := linesFrom_lines ((linesFrom [] t).map (filled defaultYes))
    (fun line member => isLine_of_mem_filled complete member)
  rw [withDefaults, lines, spoken, List.filterMap_map]
  congr 1
  funext line
  exact ofLine_filled line

theorem spoken_widened (widened : Widened t u) (line : Text) :
    spoken defaultYes (linesFrom line u) = spoken defaultYes (linesFrom line t) := by
  induction widened generalizing line with
  | nil => rfl
  | keep c further inductionHypothesis =>
    rw [linesFrom, linesFrom]
    by_cases newline : c = '\n'
    · rw [if_pos newline, if_pos newline, spoken_cons, spoken_cons, inductionHypothesis]
    · rw [if_neg newline, if_neg newline, inductionHypothesis]
  | widen further inductionHypothesis =>
    have same := stripped_append_return line.reverse
    have wide := linesFrom_append ['\r'] (by decide) line
    have plain := linesFrom_append [] (by decide) line
    simp only [List.nil_append, List.append_assoc, List.cons_append] at wide plain
    rw [wide, plain, spoken_cons, spoken_cons, ofLine_congr same, inductionHypothesis]

/-- To quit at the end is what the end of the input says. -/
theorem spoken_quit (complete : Complete t) (place : Nat) :
    (spoken defaultYes (linesFrom [] (t ++ ['q', '\n']))).getD place .quit =
      (spoken defaultYes (linesFrom [] t)).getD place .quit := by
  have last : spoken defaultYes [['q', '\n']] = [.quit] := by cases defaultYes <;> decide
  have lines : linesFrom [] ['q', '\n'] = [['q', '\n']] := by decide
  rw [complete.linesFrom_append, spoken_append, lines, last]
  simp only [List.getD_eq_getElem?_getD, List.getElem?_append]
  split
  · rfl
  · rename_i outside
    rw [List.getElem?_eq_none (Nat.le_of_not_lt outside)]
    cases place - (spoken defaultYes (linesFrom [] t)).length <;> rfl

/-- A rewritten text is heard like the text. -/
theorem heard_of_rewrite (complete : Complete t) (rewrite : Rewrite defaultYes t u) (place : Nat) :
    heard defaultYes (ofStream u) place = heard defaultYes (ofStream t) place := by
  rw [heard_ofStream, heard_ofStream]
  cases rewrite with
  | dropIdle => rw [spoken_withoutIdle complete]
  | fillBlank => rw [spoken_withDefaults complete]
  | widen widened => rw [spoken_widened widened]
  | quit => exact spoken_quit complete place

end Answers

namespace InputLine

variable {defaultYes : Bool} {t u : Text}

theorem Widened.getLastD_eq (widened : Widened t u) (last : Char) :
    u.getLastD last = t.getLastD last := by
  induction widened generalizing last with
  | nil => rfl
  | keep c further inductionHypothesis =>
    rw [List.getLastD_cons, List.getLastD_cons, inductionHypothesis]
  | widen further inductionHypothesis =>
    rw [List.getLastD_cons, List.getLastD_cons, List.getLastD_cons, inductionHypothesis]

theorem Widened.mem (widened : Widened t u) {c : Char} (member : c ∈ u) : c ∈ t ∨ c = '\r' := by
  induction widened with
  | nil => exact .inl member
  | keep c further inductionHypothesis => grind
  | widen further inductionHypothesis => grind

/-- Rewriting finishes all lines again. -/
theorem Rewrite.complete (rewrite : Rewrite defaultYes t u) (complete : Complete t) :
    Complete u := by
  cases rewrite with
  | dropIdle => exact .of_lines fun line member => complete.isLine (List.mem_filter.mp member).1
  | fillBlank => exact .of_lines fun line member => Answers.isLine_of_mem_filled complete member
  | widen widened => exact (widened.getLastD_eq '\n').trans complete
  | quit => simp [Complete, List.getLastD_eq_getLast?]

/-- No rewriting interrupts. -/
theorem Rewrite.uninterrupted (rewrite : Rewrite defaultYes t u) (none : '\x03' ∉ t) :
    '\x03' ∉ u := by
  have lines : ∀ line ∈ linesFrom [] t, '\x03' ∉ line := fun line among present =>
    none (mem_of_mem_line among present)
  intro present
  cases rewrite with
  | dropIdle =>
    obtain ⟨line, member, present⟩ := List.mem_flatten.mp present
    exact lines line (List.mem_filter.mp member).1 present
  | fillBlank =>
    obtain ⟨line, member, present⟩ := List.mem_flatten.mp present
    obtain ⟨line, among, rfl⟩ := List.mem_map.mp member
    have old := lines line among
    rw [filled] at present
    cases defaultYes <;> grind [Review.defaultAnswer]
  | widen widened =>
    rcases widened.mem present with present | same
    · exact none present
    · exact absurd same (by decide)
  | quit => simp [none] at present

end InputLine

namespace Review

open InputLine

/-- Lines that are no answers, the default answer instead of blank lines, carriage
returns before newlines and a last line that quits make no difference to a run. The
input may come from a stream or, if nothing interrupts it, from a keyboard. A
rewritten input has only finished lines, so it can be rewritten further. -/
theorem outcome_of_rewrite (r : Review) (s : Session) {t u : Text} (complete : Complete t)
    (rewrite : Rewrite r.defaultYes t u) :
    Complete u ∧
      r.outcome (s.reading (ofStream u)) = r.outcome (s.reading (ofStream t)) ∧
      ('\x03' ∉ t →
        r.outcome (s.reading (ofKeys u)) = r.outcome (s.reading (ofKeys t))) := by
  have same : r.outcome (s.reading (ofStream u)) = r.outcome (s.reading (ofStream t)) :=
    outcome_of_heard (Answers.heard_of_rewrite complete rewrite) s
  refine ⟨rewrite.complete complete, same, ?_⟩
  intro none
  rw [ofKeys_eq_ofStream none, ofKeys_eq_ofStream (rewrite.uninterrupted none)]
  exact same

/-- A word that is no answer, a blank line and a yes. -/
def mumbledInput : Text := "what\n\ny\n".toList

/-- Two patches are asked about; the first one is rejected and the second one
taken, in whatever way that is written. -/
theorem mumbled_outcome_of_rewrite :
    Complete mumbledInput ∧
      (let r := singleReview.asking [.twoDigits]
      let outcome (t : Text) := r.outcome (singleSession.reading (ofStream t))
      outcome "\ny\n".toList = outcome mumbledInput ∧
        outcome "what\nn\ny\n".toList = outcome mumbledInput ∧
        outcome "what\r\n\ny\r\n".toList = outcome mumbledInput ∧
        outcome "what\n\ny\nq\n".toList = outcome mumbledInput ∧
        (outcome mumbledInput).counts = ⟨2, 1, 1⟩) := by
  have complete : Complete mumbledInput := by decide
  have widened : Widened mumbledInput "what\r\n\ny\r\n".toList :=
    .keep _ (.keep _ (.keep _ (.keep _ (.widen (.keep _ (.keep _ (.widen .nil)))))))
  refine ⟨complete, ?_, ?_, ?_, ?_, by decide +kernel⟩
  · exact (outcome_of_rewrite _ singleSession complete .dropIdle).2.1
  · exact (outcome_of_rewrite _ singleSession complete .fillBlank).2.1
  · exact (outcome_of_rewrite _ singleSession complete (.widen widened)).2.1
  · exact (outcome_of_rewrite _ singleSession complete .quit).2.1

end Review

end Emend
