import Emend.Grammar.Lexer

/-!
# Tokens stand in their text

A scanner loses nothing: what it takes, followed by the rest, is the text that it
was given. So the reader is always at the offset that it counts, and each token that
it reads is the text of its own extent.

The reader keeps both facts from step to step, whatever it is inside of. Only the
tokens that cover no text, at the ends of blocks and of the module, are added without
anything being taken.
-/

namespace Emend.Grammar

namespace Scan

/-- If something was scanned, nothing of the text is lost. -/
def Splits (t : Text) (scanned : Option Split) : Prop :=
  ∀ split, scanned = some split → split.1 ++ split.2 = t

namespace Splits

/-- Nothing was scanned, so nothing is lost. -/
theorem none (t : Text) : Splits t none := by
  intro split found
  cases found

/-- Something was scanned, and its two parts are the text. -/
theorem some {t taken rest : Text} (whole : taken ++ rest = t) : Splits t (some (taken, rest)) := by
  rintro split ⟨⟩
  exact whole

/-- Characters that were taken before come back in front. -/
theorem prepend {t : Text} {scanned : Option Split} (splits : Splits t scanned) (taken : Text) :
    Splits (taken ++ t) (scanned.map (·.prepend taken)) := by
  intro split found
  obtain ⟨inner, scans, rfl⟩ := Option.map_eq_some_iff.mp found
  rw [Split.prepend, List.append_assoc, splits inner scans]

/-- Scanning goes on after what was taken. -/
theorem bind {t u : Text} {scanned : Option Split} (splits : Splits u scanned)
    {next : Split → Option Split}
    (further : ∀ taken rest, taken ++ rest = u → Splits t (next (taken, rest))) :
    Splits t (scanned.bind next) := by
  intro split found
  obtain ⟨first, scans, found⟩ := Option.bind_eq_some_iff.mp found
  exact further first.1 first.2 (splits first scans) split found

end Splits

/-- All three ends of lines are taken whole. -/
theorem lineEnd?_splits (t : Text) : Splits t (lineEnd? t) := by
  rw [lineEnd?.eq_def]
  split
  · exact .some rfl
  · exact .some rfl
  · exact .some rfl
  · exact .none _

/-- A line is cut in two where its end begins. -/
theorem restOfLine_append (t : Text) : (restOfLine t).1 ++ (restOfLine t).2 = t :=
  List.takeWhile_append_dropWhile

/-- The body of a string on one line. Every step puts what it has taken in front of what the
scanner finds further on; the cases are those of the scanner. -/
theorem shortString_splits (quote : Char) (t : Text) : Splits t (shortString quote t) := by
  fun_induction shortString quote t with
  | case1 => exact .none _
  | case2 rest inductionHypothesis => exact inductionHypothesis.prepend ['\\', '\r', '\n']
  | case3 c rest _ inductionHypothesis => exact inductionHypothesis.prepend ['\\', c]
  | case4 => exact .some rfl
  | case5 => exact .none _
  | case6 c rest _ _ _ _ inductionHypothesis => exact inductionHypothesis.prepend [c]

/-- The body between three quotes, likewise. The closing quotes are a prefix of the rest,
which gives the split. -/
theorem longString_splits (quote : Char) (t : Text) : Splits t (longString quote t) := by
  fun_induction longString quote t with
  | case1 => exact .none _
  | case2 c rest inductionHypothesis => exact inductionHypothesis.prepend ['\\', c]
  | case3 c rest _ closes =>
    obtain ⟨more, whole⟩ := List.isPrefixOf_iff_prefix.mp closes
    cases whole
    exact .some rfl
  | case4 c rest _ _ inductionHypothesis => exact inductionHypothesis.prepend [c]

/-- The opening quotes are cut off by their number and come back in front. -/
theorem string_splits (quote : Char) (t : Text) : Splits t (string quote t) := by
  rw [string]
  split
  · have splits := (longString_splits quote (t.drop 3)).prepend (t.take 3)
    rwa [List.take_append_drop] at splits
  · have splits := (shortString_splits quote (t.drop 1)).prepend (t.take 1)
    rwa [List.take_append_drop] at splits

/-- Digits with single underscores between them. -/
theorem digits_splits (isDigit : Char → Bool) (t : Text) : Splits t (digits isDigit t) := by
  fun_induction digits isDigit t with
  | case1 c rest _ inductionHypothesis => exact inductionHypothesis.prepend ['_', c]
  | case2 => exact .none _
  | case3 => exact .none _
  | case4 c rest _ _ _ inductionHypothesis => exact inductionHypothesis.prepend [c]
  | case5 => exact .some rfl
  | case6 => exact .some rfl

/-- Digits after the mark of their base; what is refused is no loss. -/
theorem based_splits (isDigit : Char → Bool) (t : Text) : Splits t (based isDigit t) := by
  refine (digits_splits isDigit t).bind fun taken rest whole => ?_
  dsimp only
  split
  · exact .none _
  split
  · split
    · exact .none _
    · exact .some whole
  · exact .some whole

/-- An exponent is its letter, perhaps a sign, and digits. Without them nothing is taken. -/
theorem exponent_splits (t : Text) : Splits t (exponent t) := by
  rw [exponent.eq_def]
  split
  · rename_i e sign rest
    split
    · split
      · split
        · rename_i c more
          split
          · exact (digits_splits _ (c :: more)).prepend [e, sign]
          · exact .none _
        · exact .none _
      · split
        · exact (digits_splits _ (sign :: rest)).prepend [e]
        · exact .some rfl
    · exact .some rfl
  · exact .some rfl

/-- The mark of an imaginary number, which may be missing. -/
theorem imaginary_append (t : Text) : (imaginary t).1 ++ (imaginary t).2 = t := by
  rw [imaginary.eq_def]
  split
  · split <;> rfl
  · rfl

/-- The digits after a point, of which there may be none. -/
theorem fraction_splits (t : Text) : Splits t (fraction t) := by
  rw [fraction.eq_def]
  split
  · split
    · exact digits_splits _ _
    · exact .some rfl
  · exact .some rfl

/-- What may follow the point of a number. -/
theorem power_splits {t point rest : Text} (whole : point ++ rest = t) :
    Splits t ((exponent rest).bind fun power =>
      Option.some (point ++ power.1 ++ (imaginary power.2).1, (imaginary power.2).2)) := by
  refine (exponent_splits rest).bind fun power more split => .some ?_
  rw [List.append_assoc, List.append_assoc, imaginary_append, split, whole]

/-- What may follow the whole part of a number: a fraction, an exponent and the mark of an
imaginary number. -/
theorem tail_splits (t : Text) : Splits t (tail t) := by
  rw [tail.eq_def]
  dsimp only
  split
  · exact ((fraction_splits _).prepend ['.']).bind fun _ _ whole => power_splits whole
  · exact power_splits rfl

/-- What may follow the first digits of a number. -/
theorem decimal_tail_splits {t digits rest : Text} (whole : digits ++ rest = t) :
    Splits t ((tail rest).bind fun more =>
      if isZeroFirst digits && more.1.isEmpty && !startsExponent more.2 then Option.none
      else Option.some (digits ++ more.1, more.2)) := by
  refine (tail_splits rest).bind fun more left split => ?_
  split
  · exact .none _
  · exact .some (by rw [List.append_assoc, split, whole])

/-- A number may start with its point, in which case it has no first digits. -/
theorem decimal_splits (t : Text) : Splits t (number.decimal t) := by
  rw [number.decimal.eq_def]
  dsimp only
  split
  · exact decimal_tail_splits rfl
  · exact (digits_splits _ _).bind fun _ _ whole => decimal_tail_splits whole

/-- A zero and a letter stand for a base; all other numbers are decimal. -/
theorem number_splits (t : Text) : Splits t (number t) := by
  rw [number.eq_def]
  split
  · rename_i c rest
    split
    · exact (based_splits _ rest).prepend ['0', c]
    split
    · exact (based_splits _ rest).prepend ['0', c]
    split
    · exact (based_splits _ rest).prepend ['0', c]
    · exact decimal_splits _
  · exact decimal_splits _

/-- A word is the longest stretch of its characters. -/
theorem word_splits (t : Text) : Splits t (word t) := by
  rw [word.eq_def]
  split
  · split
    · exact .some (by rw [List.cons_append, List.takeWhile_append_dropWhile])
    · exact .none _
  · exact .none _

/-- The symbol that is found is a prefix of the text, so it and the rest are the text. -/
theorem symbol_splits (t : Text) : Splits t (symbol t) := by
  intro split found
  obtain ⟨s, first, rfl⟩ := Option.map_eq_some_iff.mp found
  have starts : s.isPrefixOf t = true := by simpa using List.find?_some first
  obtain ⟨rest, rfl⟩ := List.isPrefixOf_iff_prefix.mp starts
  rw [List.drop_left]

/-- The text of a formatted string between its fields. -/
theorem formatText_splits (quote : Char) (triple raw spec named : Bool) (t : Text) :
    Splits t (formatText quote triple raw spec named t) := by
  -- Each case refuses, stops, or goes on behind what it has taken.
  fun_induction formatText quote triple raw spec named t
  all_goals first
    | exact .none _
    | exact .some rfl
    | exact Splits.prepend ‹_› _

end Scan

/-- A token is the text of its extent. -/
def Token.StandsIn (k : Token) (t : Text) : Prop :=
  ∃ front back, t = front ++ k.text ++ back ∧
    k.extent = ⟨front.length, front.length + k.text.length⟩

namespace Lexer

/-- The reader has come to its offset in a text, and the tokens that it has read
stand in the text. -/
structure Reads (t : Text) (s : Lexer) : Prop where
  passed : ∃ front, t = front ++ s.rest ∧ s.offset = front.length
  tokens : ∀ k ∈ s.tokens, k.StandsIn t

namespace Reads

variable {t : Text} {s : Lexer}

/-- Passing over characters. -/
theorem advance (reads : Reads t s) {s' : Lexer} {taken : Text}
    (whole : taken ++ s'.rest = s.rest) (offset : s'.offset = s.offset + taken.length)
    (tokens : s'.tokens = s.tokens) : Reads t s' := by
  obtain ⟨⟨front, split, passed⟩, stand⟩ := reads
  refine ⟨⟨front ++ taken, ?_, ?_⟩, tokens ▸ stand⟩
  · rw [List.append_assoc, whole, split]
  · rw [offset, passed, List.length_append]

/-- A token is added for what was taken. It starts at the offset of the reader, and this is
the length of what was read before. -/
theorem emit (reads : Reads t s) (kind : TokenKind) {taken rest : Text}
    (whole : taken ++ rest = s.rest) : Reads t (s.emit kind taken rest) := by
  obtain ⟨⟨front, split, passed⟩, stand⟩ := reads
  rw [← whole] at split
  refine ⟨⟨front ++ taken, ?_, ?_⟩, ?_⟩
  · rw [split, List.append_assoc]
    rfl
  · rw [List.length_append, ← passed]
    rfl
  · intro k member
    rcases List.mem_cons.mp member with rfl | member
    · exact ⟨front, rest, by rw [split, List.append_assoc], by rw [passed]⟩
    · exact stand k member

/-- A token that covers no text stands everywhere. -/
theorem mark (reads : Reads t s) (kind : TokenKind) : Reads t (s.mark kind) := by
  obtain ⟨⟨front, split, passed⟩, stand⟩ := reads
  refine ⟨⟨front, split, passed⟩, ?_⟩
  intro k member
  rcases List.mem_cons.mp member with rfl | member
  · exact ⟨front, s.rest, by rw [List.append_nil, split], by rw [passed]; rfl⟩
  · exact stand k member

end Reads

variable {t : Text}

/-- Blocks are closed from the inside out. Each of them adds a token that covers no text. -/
theorem closeBlocks_reads {width narrow : Nat} {blocks : List Block} {s s' : Lexer}
    (reads : Reads t s) (closes : closeBlocks width narrow blocks s = some s') :
    Reads t s' ∧ s'.rest = s.rest := by
  induction blocks generalizing s with
  | nil => cases closes
  | cons b outer inductionHypothesis =>
    rw [closeBlocks] at closes
    split at closes
    · split at closes
      · cases closes
        exact ⟨⟨reads.passed, reads.tokens⟩, rfl⟩
      · cases closes
    split at closes
    · cases closes
    · have closed := inductionHypothesis (reads.mark .dedent) closes
      exact closed

/-- Opening and closing blocks leaves the reader where it is. -/
theorem settle_reads {margin : Text} {s s' : Lexer} (reads : Reads t s)
    (settles : s.settle margin = some s') :
    Reads t s' ∧ s'.rest = s.rest := by
  rw [settle] at settles
  dsimp only at settles
  split at settles
  · cases settles
  split at settles
  · split at settles
    · cases settles
      have marked := reads.mark .indent
      exact ⟨⟨marked.passed, marked.tokens⟩, rfl⟩
    · cases settles
  · exact closeBlocks_reads reads settles

/-- What an opening has taken, followed by the rest. -/
def Opening.whole : Opening → Text
  | .blank taken rest => taken ++ rest
  | .token taken rest _ => taken ++ rest

/-- The start of a logical line loses nothing. The induction is on the continued
lines of the margin. -/
theorem opening_whole {fuel : Nat} {continued : Bool} {taken rest : Text} {found : Opening}
    (opens : opening fuel continued taken rest = some found) : found.whole = taken ++ rest := by
  induction fuel generalizing continued taken rest with
  | zero => cases opens
  | succ fuel inductionHypothesis =>
    have margin := List.takeWhile_append_dropWhile (p := isGap) (l := rest)
    rw [opening] at opens
    generalize rest.takeWhile isGap = blanks at opens margin
    generalize rest.dropWhile isGap = more at opens margin
    rw [← margin, ← List.append_assoc]
    have ending (u : Text) {stop left : Text} (ends : Scan.lineEnd? u = some (stop, left)) :
        stop ++ left = u := Scan.lineEnd?_splits u _ ends
    dsimp only at opens
    split at opens
    · cases opens
      rfl
    · rename_i comment
      have line := Scan.restOfLine_append ('#' :: comment)
      rcases Scan.restOfLine ('#' :: comment) with ⟨words, left⟩
      rw [← line]
      split at opens
      · rename_i ends
        cases opens
        rw [Opening.whole, ← ending _ ends]
        simp only [List.append_assoc]
      · cases opens
        rw [Opening.whole, List.append_assoc]
    · rename_i slashed
      split at opens
      · rename_i ends
        split at opens
        · cases opens
        · rw [inductionHypothesis opens, ← ending _ ends]
          simp only [List.append_assoc, List.cons_append, List.nil_append]
      · cases opens
    · split at opens
      · rename_i ends
        cases opens
        rw [Opening.whole, ← ending _ ends, List.append_assoc]
      · cases opens
        rfl

/-- The margin of a line is passed over, after the blocks that it closes or opens were
settled. -/
theorem startLine_reads {s s' : Lexer} (reads : Reads t s) (starts : s.startLine = some s') :
    Reads t s' := by
  rw [startLine] at starts
  obtain ⟨found, opens, starts⟩ := Option.bind_eq_some_iff.mp starts
  have whole := opening_whole opens
  cases found with
  | blank taken rest =>
    cases starts
    exact reads.advance whole rfl rfl
  | token taken rest continued =>
    dsimp only at starts
    split at starts
    · cases starts
      exact reads.advance whole rfl rfl
    · obtain ⟨m, settles, starts⟩ := Option.bind_eq_some_iff.mp starts
      cases starts
      obtain ⟨reads, same⟩ := settle_reads reads settles
      exact reads.advance (whole.trans same.symm) rfl rfl

/-- A symbol is taken by one of four ways: the end of a field, the start of its format, its
conversion, or the longest symbol of all. Brackets are remembered in the modes, which the
tokens do not depend on. -/
theorem symbol_reads {s s' : Lexer} (reads : Reads t s) (reading : s.symbol = some s') :
    Reads t s' := by
  have take {taken rest : Text} (whole : taken ++ rest = s.rest) :=
    reads.emit .symbol whole
  rw [symbol.eq_def] at reading
  split at reading
  · rename_i rest _ starts _
    cases reading
    have emitted : Reads t (s.emit .symbol ['\x7d'] rest) := take starts.symm
    exact ⟨emitted.passed, emitted.tokens⟩
  · rename_i rest _ starts _
    cases reading
    have emitted : Reads t (s.emit .symbol [':'] rest) := take starts.symm
    exact ⟨emitted.passed, emitted.tokens⟩
  · rename_i starts _
    split at reading
    · cases reading
      exact take starts.symm
    · cases reading
      exact take starts.symm
  · obtain ⟨⟨taken, rest⟩, scans, reading⟩ := Option.bind_eq_some_iff.mp reading
    have emitted := take (Scan.symbol_splits _ _ scans)
    have modal (modes : List Mode) : Reads t { s.emit .symbol taken rest with modes } :=
      ⟨emitted.passed, emitted.tokens⟩
    dsimp only at reading
    split at reading
    · split at reading
      · cases reading
        exact modal _
      split at reading
      · split at reading
        · split at reading <;> cases reading
          exact modal _
        · cases reading
      · cases reading
        exact emitted
    · cases reading
      exact emitted

/-- A word, or the string that it stands before. -/
theorem wordOrString_reads {letters rest : Text} {s s' : Lexer} (reads : Reads t s)
    (whole : letters ++ rest = s.rest) (reading : s.wordOrString letters rest = some s') :
    Reads t s' := by
  rw [wordOrString.eq_def] at reading
  dsimp only at reading
  split at reading
  · rename_i c more
    split at reading
    · split at reading
      · obtain ⟨⟨body, left⟩, scans, reading⟩ := Option.bind_eq_some_iff.mp reading
        cases reading
        apply reads.emit
        rw [List.append_assoc, Scan.string_splits _ _ _ scans, whole]
      split at reading
      · cases reading
        have emitted (width : Nat) : Reads t (s.emit .formatOpen
            (letters ++ (c :: more).take width) ((c :: more).drop width)) :=
          reads.emit .formatOpen (by rw [List.append_assoc, List.take_append_drop, whole])
        exact ⟨(emitted _).passed, (emitted _).tokens⟩
      · cases reading
        exact reads.emit .word whole
    · cases reading
      exact reads.emit .word whole
  · cases reading
    exact reads.emit .word whole

/-- What a token starts with decides its scanner. -/
theorem token_reads {c : Char} {s s' : Lexer} (reads : Reads t s)
    (reading : s.token c = some s') : Reads t s' := by
  rw [token] at reading
  split at reading
  · obtain ⟨⟨body, rest⟩, scans, reading⟩ := Option.bind_eq_some_iff.mp reading
    cases reading
    exact reads.emit .string (Scan.string_splits _ _ _ scans)
  split at reading
  · obtain ⟨⟨taken, rest⟩, scans, reading⟩ := Option.bind_eq_some_iff.mp reading
    cases reading
    exact reads.emit .number (Scan.number_splits _ _ scans)
  split at reading
  · rename_i scans
    exact wordOrString_reads reads (Scan.word_splits _ _ scans) reading
  · exact symbol_reads reads reading

/-- Within a line: blanks, comments and continued lines are passed over, the end of the line
is a token outside of brackets, and everything else is a token of its own. -/
theorem within_reads {s s' : Lexer} (reads : Reads t s) (reading : s.within = some s') :
    Reads t s' := by
  rw [within.eq_def] at reading
  split at reading
  · cases reading
  rename_i c rest starts
  split at reading
  · cases reading
    exact reads.advance List.takeWhile_append_dropWhile rfl rfl
  split at reading
  · cases reading
    exact reads.advance (Scan.restOfLine_append _) rfl rfl
  split at reading
  · split at reading
    · rename_i ending left ends
      have whole : (c :: ending) ++ left = s.rest := by
        rw [starts, ← Scan.lineEnd?_splits _ _ ends]
        rfl
      split at reading
      · cases reading
      · cases reading
        exact reads.advance whole rfl rfl
    · cases reading
  split at reading
  · rename_i ends
    have whole := Scan.lineEnd?_splits _ _ ends
    split at reading
    · cases reading
      have emitted := reads.emit .newline whole
      exact ⟨emitted.passed, emitted.tokens⟩
    · cases reading
      exact reads.advance whole rfl rfl
  · exact token_reads reads reading

/-- Within a formatted string: a stretch of text, which has a token unless it is empty, and
then the brace or the quotes that end it. -/
theorem inFormat_reads {quote : Char} {triple raw spec : Bool} {s s' : Lexer} (reads : Reads t s)
    (reading : s.inFormat quote triple raw spec = some s') : Reads t s' := by
  rw [inFormat] at reading
  obtain ⟨⟨taken, rest⟩, scans, reading⟩ := Option.bind_eq_some_iff.mp reading
  have whole : taken ++ rest = s.rest := Scan.formatText_splits _ _ _ _ _ _ _ scans
  -- A token is read for a piece of text that is not empty. The next one follows it.
  have further : ∃ m, Reads t m ∧ m.rest = rest ∧
      m = if taken.isEmpty then s else s.emit .formatText taken rest := by
    refine ⟨_, ?_, ?_, rfl⟩ <;> split
    · exact reads
    · exact reads.emit .formatText whole
    · rename_i empty
      rw [← whole, List.isEmpty_iff.mp empty, List.nil_append]
    · rfl
  obtain ⟨m, reads, same, between⟩ := further
  have take (kind : TokenKind) {taken rest' : Text} (split : taken ++ rest' = rest) :
      Reads t (m.emit kind taken rest') := reads.emit kind (split.trans same.symm)
  dsimp only at reading
  rw [← between] at reading
  split at reading
  · cases reading
    have emitted := take .symbol (List.singleton_append)
    exact ⟨emitted.passed, emitted.tokens⟩
  · split at reading
    · cases reading
      have emitted := take .symbol (List.singleton_append)
      exact ⟨emitted.passed, emitted.tokens⟩
    · cases reading
  · split at reading
    · cases reading
    · cases reading
      have emitted (width : Nat) := take .formatClose (List.take_append_drop width rest)
      exact ⟨(emitted _).passed, (emitted _).tokens⟩

/-- One step of the reader. -/
theorem step_reads {s s' : Lexer} (reads : Reads t s) (steps : s.step = some s') :
    Reads t s' := by
  rw [step.eq_def] at steps
  split at steps
  · exact inFormat_reads reads steps
  · obtain ⟨⟨quote, triple, raw⟩, _, steps⟩ := Option.bind_eq_some_iff.mp steps
    exact inFormat_reads reads steps
  · split at steps
    · exact startLine_reads reads steps
    · exact within_reads reads steps
  · exact within_reads reads steps

/-- At the end the line and all blocks are closed, by tokens that cover no text. -/
theorem finish_reads {s s' : Lexer} (reads : Reads t s) (finishes : s.finish = some s') :
    Reads t s' := by
  have close (blocks : List Block) {m : Lexer} (reads : Reads t m) :
      Reads t (blocks.foldl (fun s _ => s.mark .dedent) m) := by
    induction blocks generalizing m with
    | nil => exact reads
    | cons b outer inductionHypothesis => exact inductionHypothesis (reads.mark .dedent)
  rw [finish] at finishes
  split at finishes
  · cases finishes
    apply close
    split
    · exact reads
    · exact reads.mark .newline
  · cases finishes

/-- The reader to its end. -/
theorem run_reads {fuel : Nat} {s s' : Lexer} (reads : Reads t s) (runs : s.run fuel = some s') :
    Reads t s' := by
  induction fuel generalizing s with
  | zero => cases runs
  | succ fuel inductionHypothesis =>
    rw [run] at runs
    split at runs
    · exact finish_reads reads runs
    · obtain ⟨m, steps, runs⟩ := Option.bind_eq_some_iff.mp runs
      exact inductionHypothesis (step_reads reads steps) runs

end Lexer

/-- The tokens of a text stand in it. A byte order mark is passed over, and it does
count. -/
theorem tokens?_standIn {t : Text} {tokens : List Token} {rewordings : List Rewording}
    (read : tokens? t = some (tokens, rewordings)) : ∀ k ∈ tokens, k.StandsIn t := by
  rw [tokens?.eq_def] at read
  obtain ⟨final, runs, read⟩ := Option.bind_eq_some_iff.mp read
  cases read
  have reads : Lexer.Reads t final := by
    refine Lexer.run_reads ?_ runs
    split
    · exact ⟨⟨['\ufeff'], rfl, rfl⟩, by simp⟩
    · exact ⟨⟨[], rfl, rfl⟩, by simp⟩
  intro k member
  exact reads.tokens k (List.mem_reverse.mp member)

end Emend.Grammar
