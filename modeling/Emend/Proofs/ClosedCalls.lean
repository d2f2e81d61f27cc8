import Emend.Proofs.ConsoleLines

/-!
# Calls that are closed on their line

The pattern for calls on the console takes the last closing parenthesis of a line
for the one that closes the call. It is that one exactly if the parentheses
between it and the one that opens the arguments are balanced. If they are not,
then either the call is closed earlier and other code stands between the two, or
it is not closed on its line at all. Such a line is removed like any other as
long as there is no semicolon in what is taken for the arguments.
-/

namespace Emend

namespace Text

/-- A text in which each parenthesis has its partner. -/
inductive Balanced : Text → Prop
  | none : Balanced []
  | other {c : Char} {rest : Text} (opens : c ≠ '(') (closes : c ≠ ')') (balanced : Balanced rest) :
      Balanced (c :: rest)
  | pair {inner rest : Text} (inside : Balanced inner) (after : Balanced rest) :
      Balanced ('(' :: (inner ++ ')' :: rest))

/-- The parenthesis that closes is in one place only. -/
theorem Balanced.unique {u v rest other : Text} (first : Balanced u) (second : Balanced v)
    (same : u ++ ')' :: rest = v ++ ')' :: other) : u = v ∧ rest = other := by
  induction first generalizing v rest other with
  | none =>
    cases second with
    | none => exact ⟨rfl, (List.cons.inj same).2⟩
    | other opens closes balanced => exact absurd (List.cons.inj same).1.symm closes
    | pair inside after => exact absurd (List.cons.inj same).1 (by decide)
  | other opens closes balanced inductionHypothesis =>
    cases second with
    | none => exact absurd (List.cons.inj same).1 closes
    | other opens closes balanced =>
      obtain ⟨rfl, further⟩ := List.cons.inj same
      obtain ⟨rfl, left⟩ := inductionHypothesis balanced further
      exact ⟨rfl, left⟩
    | pair inside after => exact absurd (List.cons.inj same).1 opens
  | pair inside after insideHypothesis afterHypothesis =>
    cases second with
    | none => exact absurd (List.cons.inj same).1 (by decide)
    | other opens closes balanced => exact absurd (List.cons.inj same).1.symm opens
    | pair inside after =>
      rw [List.cons_append, List.cons_append] at same
      have further := (List.cons.inj same).2
      rw [List.append_assoc, List.append_assoc, List.cons_append, List.cons_append] at further
      obtain ⟨rfl, middle⟩ := insideHypothesis inside further
      obtain ⟨rfl, left⟩ := afterHypothesis after middle
      exact ⟨rfl, left⟩

end Text

namespace CallHead

theorem line_append (head : CallHead) (u v : Text) : head.line u ++ v = head.line (u ++ v) := by
  simp [line]

/-- What follows the parenthesis that opens the arguments is determined by the line. -/
theorem line_injective {head other : CallHead} {u v : Text} (same : head.line u = other.line v) :
    u = v := by
  have indented {w : Text} (blank : w.AllIndent) : ∀ c ∈ w, c = ' ' ∨ c = '\t' := blank
  have starts : "console.".toList = 'c' :: "onsole.".toList := rfl
  rw [line, line, starts] at same
  obtain ⟨-, -, further⟩ := Text.stretch_unique (indented head.indent_blank)
    (indented other.indent_blank) (by decide) (by decide) same
  have worded {w : Text} (letters : w.AllWord) : ∀ c ∈ w, Text.isWord c = true := letters
  have opens : ¬ Text.isWord '(' = true := by decide +kernel
  obtain ⟨-, -, same⟩ := Text.stretch_unique (worded head.name_word) (worded other.name_word)
    opens opens (List.append_cancel_left further)
  exact same

end CallHead

/-- What may follow the last closing parenthesis of a line with a call: perhaps a semicolon,
blanks and tabs, and the end of the line. -/
def CallEnd (u : Text) : Prop :=
  ∃ semicolon trail ending : Text, (semicolon = [';'] ∨ semicolon = []) ∧ trail.AllIndent ∧
    EndsLine ending [] ∧ u = semicolon ++ (trail ++ ending)

/-- Perhaps a semicolon and then white space only. -/
def OnlyEnd (u : Text) : Prop :=
  ∃ semicolon trail : Text, (semicolon = [';'] ∨ semicolon = []) ∧ trail.AllBlank ∧
    u = semicolon ++ trail

/-- The line of a call on the console that holds nothing else: the parenthesis that closes the
call is followed by the end of the statement and white space only. -/
def StandsAlone (line : Text) : Prop :=
  ∃ (head : CallHead) (inside after : Text), inside.Balanced ∧ OnlyEnd after ∧
    line = head.line (inside ++ ')' :: after)

theorem OnlyEnd.closing_not_mem {u : Text} (ends : OnlyEnd u) : ')' ∉ u := by
  obtain ⟨semicolon, trail, single, blank, rfl⟩ := ends
  intro member
  rcases List.mem_append.mp member with member | member
  · rcases single with rfl | rfl
    · simp at member
    · cases member
  · have white := blank _ member
    revert white
    decide +kernel

theorem CallEnd.onlyEnd {u : Text} (ends : CallEnd u) : OnlyEnd u := by
  obtain ⟨semicolon, trail, ending, single, indented, ended, rfl⟩ := ends
  refine ⟨semicolon, trail ++ ending, single, ?_, rfl⟩
  intro c member
  have blank : Text.AllBlank [' ', '\t', '\r', '\n'] := by decide +kernel
  apply blank
  rcases List.mem_append.mp member with member | member
  · rcases indented c member with rfl | rfl <;> simp
  · cases ended with
    | returned => exact List.mem_cons_of_mem _ (List.mem_cons_of_mem _ member)
    | newline =>
      obtain rfl := List.mem_singleton.mp member
      simp
    | none => cases member

/-- A line that holds a call has a closing parenthesis that ends it, with neither a semicolon nor
a newline in what is taken for the arguments. -/
theorem holdsCall_iff_parts {line : Text} :
    HoldsCall line ↔ ∃ (head : CallHead) (arguments rest : Text), arguments.Unbroken ∧
      CallEnd rest ∧ line = head.line (arguments ++ ')' :: rest) := by
  constructor
  · rintro ⟨call, ending, ended, rfl⟩
    refine ⟨call.toCallHead, call.arguments, call.semicolon ++ (call.trail ++ ending),
      call.arguments_unbroken, ⟨_, _, _, call.one_semicolon, call.trail_blank, ended, rfl⟩, ?_⟩
    rw [ConsoleCall.text, CallHead.line_append, ConsoleCall.opened]
    simp
  · rintro ⟨head, arguments, _, unbroken, ⟨semicolon, trail, ending, single, indented, ended, rfl⟩,
      rfl⟩
    refine ⟨⟨head, arguments, semicolon, trail, unbroken, single, indented⟩, ending, ended, ?_⟩
    rw [ConsoleCall.text, CallHead.line_append, ConsoleCall.opened]
    simp

/-- A line on which the call is closed stands alone if only its end follows. -/
theorem standsAlone_closed_iff {head : CallHead} {inside after : Text}
    (balanced : inside.Balanced) :
    StandsAlone (head.line (inside ++ ')' :: after)) ↔ OnlyEnd after := by
  constructor
  · rintro ⟨other, inside', after', balanced', only, same⟩
    obtain ⟨-, rfl⟩ := balanced.unique balanced' (CallHead.line_injective same)
    exact only
  · intro only
    exact ⟨head, inside, after, balanced, only, rfl⟩

/-- A line with a call stands alone if its last closing parenthesis is the one that closes. -/
theorem standsAlone_last_iff {head : CallHead} {arguments rest : Text} (ends : CallEnd rest) :
    StandsAlone (head.line (arguments ++ ')' :: rest)) ↔ arguments.Balanced := by
  constructor
  · rintro ⟨other, inside, after, balanced, only, same⟩
    rcases Text.split_at_last ends.onlyEnd.closing_not_mem (CallHead.line_injective same) with
      ⟨rfl, -⟩ | ⟨between, -, rfl⟩
    · exact balanced
    · exact absurd (List.mem_append_right between List.mem_cons_self) only.closing_not_mem
  · intro balanced
    exact (standsAlone_closed_iff balanced).mpr ends.onlyEnd

/-- A line on which a call is closed holds a call also where other code follows, if that code ends
with a parenthesis as the call does and has neither a semicolon nor a newline. -/
theorem holdsCall_closed_iff {head : CallHead} {inside after : Text} :
    HoldsCall (head.line (inside ++ ')' :: after)) ↔ inside.Unbroken ∧
      (CallEnd after ∨ ∃ other rest : Text, other.Unbroken ∧ CallEnd rest ∧
        after = other ++ ')' :: rest) := by
  rw [holdsCall_iff_parts]
  constructor
  · rintro ⟨other, arguments, rest, unbroken, ends, same⟩
    have tail := CallHead.line_injective same
    rcases Text.split_at_last ends.onlyEnd.closing_not_mem tail.symm with
      ⟨rfl, rfl⟩ | ⟨between, rfl, rfl⟩
    · exact ⟨unbroken, .inl ends⟩
    · have front : inside.Unbroken := fun c member => unbroken c (List.mem_append_left _ member)
      have back : between.Unbroken := fun c member =>
        unbroken c (List.mem_append_right _ (List.mem_cons_of_mem _ member))
      exact ⟨front, .inr ⟨between, rest, back, ends, rfl⟩⟩
  · rintro ⟨unbroken, ends | ⟨other, rest, further, ends, rfl⟩⟩
    · exact ⟨head, inside, after, unbroken, ends, rfl⟩
    · refine ⟨head, inside ++ ')' :: other, rest, ?_, ends, by simp⟩
      intro c member
      rcases List.mem_append.mp member with member | member
      · exact unbroken c member
      · rcases List.mem_cons.mp member with rfl | member
        · decide
        · exact further c member

namespace Suggestor

variable {source : Source}

/-- A patch for a line is proposed exactly if the text has the line and it holds a call. -/
theorem exists_removal_iff {offset : Nat} {line : Text} :
    (∃ p ∈ removeConsole.proposed source, p.start = offset ∧ p.replaced = line) ↔
      (offset, line) ∈ source.text.placedLines ∧ HoldsCall line := by
  have listed : (offset, line) ∈ (removeConsole.proposed source).map
      (fun p => (p.start, p.replaced)) ↔
        (offset, line) ∈ source.text.placedLines ∧ HoldsCall line := by
    rw [removeConsole_lines, List.mem_filter, decide_eq_true_eq]
  rw [← listed, List.mem_map]
  simp only [Prod.mk.injEq]

/-- What is removed with a call on the console. A line on which the call is closed stands alone if
only the end of the statement follows. It is removed in that case, and also if what follows has
neither a semicolon nor a newline up to a closing parenthesis that ends the line. So a line that is
removed stands alone exactly if the parentheses between the first one and the last one are
balanced. -/
theorem removed_line_stands_alone_iff (source : Source) :
    (∀ (offset : Nat) (head : CallHead) (inside after : Text), inside.Balanced →
      (StandsAlone (head.line (inside ++ ')' :: after)) ↔ OnlyEnd after) ∧
        ((∃ p ∈ removeConsole.proposed source, p.start = offset ∧
            p.replaced = head.line (inside ++ ')' :: after)) ↔
          (offset, head.line (inside ++ ')' :: after)) ∈ source.text.placedLines ∧
            inside.Unbroken ∧
            (CallEnd after ∨ ∃ other rest : Text, other.Unbroken ∧ CallEnd rest ∧
              after = other ++ ')' :: rest))) ∧
      ∀ p ∈ removeConsole.proposed source, ∃ (head : CallHead) (arguments rest : Text),
        p.replaced = head.line (arguments ++ ')' :: rest) ∧ arguments.Unbroken ∧ CallEnd rest ∧
          (StandsAlone p.replaced ↔ arguments.Balanced) := by
  constructor
  · intro offset head inside after balanced
    constructor
    · exact standsAlone_closed_iff balanced
    · rw [exists_removal_iff, holdsCall_closed_iff]
  · intro p proposed
    obtain ⟨-, holds⟩ := exists_removal_iff.mp ⟨p, proposed, rfl, rfl⟩
    obtain ⟨head, arguments, rest, unbroken, ends, whole⟩ := holdsCall_iff_parts.mp holds
    refine ⟨head, arguments, rest, whole, unbroken, ends, ?_⟩
    rw [whole]
    exact standsAlone_last_iff ends

/-- The start of a line that logs something. -/
def logHead : CallHead where
  indent := []
  name := "log".toList
  indent_blank := by decide
  named := by decide
  name_word := by decide +kernel

/-- A script with two calls, of which the first one is followed by other code. -/
def twoCalls : Source := ⟨"console.log(a), run(b);\nconsole.log(f(a));\n".toList, none⟩

theorem balanced_letter {rest : Text} (balanced : rest.Balanced) : Text.Balanced ('a' :: rest) :=
  .other (by decide) (by decide) balanced

theorem not_onlyEnd_trailing : ¬ OnlyEnd ", run(b);\n".toList := by
  rintro ⟨_, trail, rfl | rfl, blank, same⟩
  · cases same
  · have white := blank ',' (by rw [← List.nil_append trail, ← same]; decide)
    revert white
    decide +kernel

/-- Both lines of the script are removed, and one of them stands alone. -/
theorem two_calls_removed :
    (∃ p ∈ removeConsole.proposed twoCalls, p.start = 0 ∧ ¬ StandsAlone p.replaced) ∧
      ∃ p ∈ removeConsole.proposed twoCalls, p.start = 24 ∧ StandsAlone p.replaced ∧
        ∃ (head : CallHead) (arguments rest : Text), arguments.Balanced ∧
          p.replaced = head.line (arguments ++ ')' :: rest) := by
  have ended : CallEnd ";\n".toList :=
    ⟨[';'], [], ['\n'], .inl rfl, by decide, .newline, rfl⟩
  constructor
  · obtain ⟨alone, removed⟩ := (removed_line_stands_alone_iff twoCalls).1 0 logHead ['a']
      ", run(b);\n".toList (balanced_letter .none)
    obtain ⟨p, proposed, start, replaced⟩ := removed.mpr ⟨by decide +kernel, by decide,
      .inr ⟨", run(b".toList, ";\n".toList, by decide, ended, rfl⟩⟩
    refine ⟨p, proposed, start, ?_⟩
    rw [replaced, alone]
    exact not_onlyEnd_trailing
  · have balanced : Text.Balanced "f(a)".toList :=
      .other (by decide) (by decide) (.pair (balanced_letter .none) .none)
    obtain ⟨alone, removed⟩ := (removed_line_stands_alone_iff twoCalls).1 24 logHead
      "f(a)".toList ";\n".toList balanced
    obtain ⟨p, proposed, start, replaced⟩ := removed.mpr ⟨by decide +kernel, by decide, .inl ended⟩
    have stands : StandsAlone p.replaced := by
      rw [replaced, alone]
      exact ended.onlyEnd
    obtain ⟨head, arguments, rest, whole, -, -, closed⟩ :=
      (removed_line_stands_alone_iff twoCalls).2 p proposed
    exact ⟨p, proposed, start, stands, head, arguments, rest, closed.mp stands, whole⟩

/-- A line is removed although other code follows the closed call. -/
theorem trailing_code_removed :
    let line : Text := "console.log(a), run(b);\n".toList
    (∀ c ∈ "'\"`/".toList, c ∉ line) ∧
      (removeConsole.proposed ⟨line, none⟩).map Patch.edit = [(0, 24, [])] ∧
      Patch.apply line (removeConsole.proposed ⟨line, none⟩) = .ok [] ∧ ¬ StandsAlone line := by
  refine ⟨by simp, by decide +kernel, by decide +kernel, ?_⟩
  intro stands
  have alone := (standsAlone_closed_iff (balanced_letter .none)).mp
    (show StandsAlone (logHead.line (['a'] ++ ')' :: ", run(b);\n".toList)) from stands)
  exact not_onlyEnd_trailing alone

end Suggestor

end Emend
