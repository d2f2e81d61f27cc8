import Emend.Proofs.GroundedExpressions

/-!
# Statements are grounded

One lemma for each rule of the grammar of patterns, lines and statements, as for
expressions. At the end stands the module: its marks are grounded in the tokens of its
text, since the parser starts with them and never takes a token from elsewhere.
-/

namespace Emend.Grammar

open Emend.Grammar.Parser

variable {tokens : List Token} (bound : Nat)

namespace CasePattern

/-- A name that a pattern binds is a word and is marked. The wildcard is not admitted here.
-/
theorem capture_yields : Yields tokens capture (Grounded tokens) :=
  (nameWhere_yields _).bind fun _ word => .pure (.cons word .nil)

/-- Behind a star the wildcard is admitted, and it is not marked. -/
theorem starred_yields : Yields tokens starred (Grounded tokens) :=
  (symbol_keeps _).andThen fun _ => (taken_keeps _).andThen fun _ =>
    .ite (fun _ => .pure .nil) fun _ => capture_yields

/-- A sum of two numbers is marked at its first one only. -/
theorem number_yields : Yields tokens number (Grounded tokens) := by
  refine (taken_keeps _).andThen fun _ => (isNext_keeps _).andThen fun _ => ?_
  refine Literal.number_yields.bind fun first here => (taken_keeps _).andThen fun _ => ?_
  refine .ite (fun _ => ?_) fun _ => .pure here.marks
  exact (check_keeps _).andThen fun _ => (satisfy_yields _).andThen fun _ => .pure here.marks

/-- Constants are words that are marked as names. -/
theorem constant_yields : Yields tokens constant (Grounded tokens) :=
  (satisfy_yields _).bind fun _ found =>
    .pure (.cons (isWord_of_isConstant found.1 found.2) .nil)

variable {field : Parser Piece} {pattern : Parser (List Mark)}

/-- Strings as everywhere, without their contacts. -/
theorem stringMarks_yields (fields : Yields tokens field (Piece.Grounded tokens)) :
    Yields tokens ((·.marks) <$> Literal.strings bound field) (Grounded tokens) :=
  .map ((Literal.strings_yields fields bound).mono fun _ => (·.marks))

/-- The key of a mapping is a literal, a constant or a dotted name, tried in this order. -/
theorem key_yields (fields : Yields tokens field (Piece.Grounded tokens)) :
    Yields tokens (key bound field) (Grounded tokens) := by
  refine number_yields.orElse (constant_yields.orElse ((stringMarks_yields bound fields).orElse ?_))
  exact (dottedName_yields bound).bind fun _ here => (check_keeps _).andThen fun _ =>
    .pure here.marks

/-- An element is a pattern or one with a star. -/
theorem element_yields (patterns : Yields tokens pattern (Grounded tokens)) :
    Yields tokens (element pattern) fun found => Grounded tokens found.1 := by
  refine .orElse (.map ?_) (.map ?_)
  · exact starred_yields
  · exact patterns

/-- Elements with commas between them. Whether they are a sequence is returned beside their
marks. -/
theorem elements_yields (patterns : Yields tokens pattern (Grounded tokens)) :
    Yields tokens (elements bound pattern) fun found => Grounded tokens found.1 := by
  refine (element_yields patterns).bind fun first here => ?_
  refine ((element_yields patterns).listed bound).bind fun rest others => ?_
  exact (check_keeps _).andThen fun _ => .pure (here.append (.flatMap others))

/-- The entries of a mapping, by induction on their number. What is left over may be bound
by a name behind two stars, which ends the mapping. -/
theorem entries_yields (fields : Yields tokens field (Piece.Grounded tokens))
    (patterns : Yields tokens pattern (Grounded tokens)) (rounds : Nat) :
    Yields tokens (entries bound field pattern rounds) (Grounded tokens) := by
  induction rounds with
  | zero => exact .failure
  | succ rounds inductionHypothesis =>
    refine (isNext_keeps _).andThen fun _ => .ite (fun _ => .pure .nil) fun _ => ?_
    refine (taken_keeps _).andThen fun _ => .ite (fun _ => ?_) fun _ => ?_
    · refine loseBroken_keeps.andThen fun _ => capture_yields.bind fun rest here => ?_
      exact (taken_keeps _).andThen fun _ => .pure here
    refine (key_yields bound fields).bind fun first here => (symbol_keeps _).andThen fun _ => ?_
    refine patterns.bind fun value second => (taken_keeps _).andThen fun _ => ?_
    refine .ite (fun _ => ?_) fun _ => .pure (here.append second)
    exact inductionHypothesis.bind fun _ others => .pure ((here.append second).append others)

/-- Patterns by name: the name is that of an attribute and is marked as a name all the same.
-/
theorem namedParts_yields (patterns : Yields tokens pattern (Grounded tokens)) (rounds : Nat) :
    Yields tokens (namedParts pattern rounds) (Grounded tokens) := by
  induction rounds with
  | zero => exact .failure
  | succ rounds inductionHypothesis =>
    refine (isNext_keeps _).andThen fun _ => .ite (fun _ => .pure .nil) fun _ => ?_
    refine nameMark_yields.bind fun mark word => (symbol_keeps _).andThen fun _ => ?_
    refine patterns.bind fun value here => (taken_keeps _).andThen fun _ => ?_
    exact .branch inductionHypothesis (.pure .nil) fun _ others =>
      .pure (.append (.cons word here) others)

/-- Patterns by position, and from the first name on those by name. -/
theorem parts_yields (patterns : Yields tokens pattern (Grounded tokens)) (rounds : Nat)
    (first : Bool) : Yields tokens (parts pattern rounds first) (Grounded tokens) := by
  induction rounds generalizing first with
  | zero => exact .failure
  | succ rounds inductionHypothesis =>
    refine (isNext_keeps _).andThen fun _ => .ite (fun _ => .pure .nil) fun _ => ?_
    refine Expression.startsKeyword_keeps.andThen fun _ => (isNext_keeps _).andThen fun _ => ?_
    refine .ite (fun _ => namedParts_yields patterns _) fun _ => ?_
    refine patterns.bind fun value here => (taken_keeps _).andThen fun _ => ?_
    exact .branch (inductionHypothesis _) (.pure .nil) fun _ others => .pure (here.append others)

/-- The kind of the next token decides between the patterns that need no parentheses. -/
theorem closed_yields (fields : Yields tokens field (Piece.Grounded tokens))
    (patterns : Yields tokens pattern (Grounded tokens)) :
    Yields tokens (closed bound field pattern) (Grounded tokens) := by
  refine peek?_yields.andThen fun next => ?_
  cases next with
  | none => exact .failure
  | some t =>
    dsimp only
    split
    · exact number_yields
    · exact stringMarks_yields bound fields
    · exact stringMarks_yields bound fields
    · refine .ite (fun _ => constant_yields) fun _ => (taken_keeps _).andThen fun _ => ?_
      refine .ite (fun _ => .pure .nil) fun _ => (dottedName_yields bound).bind fun piece here => ?_
      refine (taken_keeps _).andThen fun _ => .ite (fun _ => ?_) fun _ => .pure here.marks
      refine (parts_yields patterns bound true).bind fun inner others => ?_
      exact (symbol_keeps _).andThen fun _ => .pure (here.marks.append others)
    · refine .ite (fun _ => number_yields) fun _ => next_keeps.andThen fun _ => ?_
      refine .ite (fun _ => ?_) fun _ => .ite (fun _ => ?_) fun _ =>
        .ite (fun _ => ?_) fun _ => .failure
      · refine (taken_keeps _).andThen fun _ => .ite (fun _ => .pure .nil) fun _ => ?_
        exact (elements_yields bound patterns).bind fun _ here =>
          (symbol_keeps _).andThen fun _ => .pure here
      · refine (taken_keeps _).andThen fun _ => .ite (fun _ => .pure .nil) fun _ => ?_
        refine (element_yields patterns).bind fun first here => ?_
        refine ((element_yields patterns).listed bound).bind fun rest others => ?_
        exact (symbol_keeps _).andThen fun _ => .pure (here.append (.flatMap others))
      · exact (entries_yields bound fields patterns bound).bind fun _ here =>
          (symbol_keeps _).andThen fun _ => .pure here
    · exact .failure

/-- Patterns with bars between them, and the name of what they match. -/
theorem whole_yields (fields : Yields tokens field (Piece.Grounded tokens))
    (patterns : Yields tokens pattern (Grounded tokens)) :
    Yields tokens (whole bound field pattern) (Grounded tokens) := by
  refine (closed_yields bound fields patterns).bind fun first here => ?_
  refine (((symbol_keeps "|").seqRight (closed_yields bound fields patterns)).many bound).bind
    fun rest others => ?_
  refine ((word_keeps "as").seqRight capture_yields).option.bind fun name held => ?_
  exact .pure ((here.append (.flatten others)).append (.getD held))

/-- The induction is on the depth of nesting, as for expressions. -/
theorem parse_yields (fields : Yields tokens field (Piece.Grounded tokens)) (depth : Nat) :
    Yields tokens (parse field depth) (Grounded tokens) := by
  induction depth with
  | zero => exact .failure
  | succ depth inductionHypothesis => exact whole_yields depth fields inductionHypothesis

/-- A case may have a sequence without brackets. -/
theorem top_yields (fields : Yields tokens field (Piece.Grounded tokens)) (depth : Nat) :
    Yields tokens (top field depth) (Grounded tokens) :=
  .map (elements_yields depth (parse_yields fields depth))

end CasePattern

variable {rule : Rules}

namespace Line

/-- Statements need only the marks of their expressions. -/
theorem marksOf_yields (rules : rule.Grounded tokens) (category : Category) :
    Yields tokens (marksOf rule category) (Grounded tokens) :=
  .map ((rules category).mono fun _ => (·.marks))

/-- A target with a type, and perhaps a value. -/
theorem ascribed_yields (rules : rule.Grounded tokens) :
    Yields tokens (ascribed rule) (Grounded tokens) := by
  refine (Target.single_yields rules).bind fun target first => (symbol_keeps _).andThen fun _ => ?_
  refine (marksOf_yields rules .expression).bind fun ascription second => ?_
  refine ((symbol_keeps "=").seqRight (marksOf_yields rules .value)).option.bind
    fun value held => ?_
  exact .pure ((first.marks.append second).append (.getD held))

/-- Any number of targets and one value. -/
theorem assigned_yields (rules : rule.Grounded tokens) :
    Yields tokens (assigned bound rule) (Grounded tokens) := by
  refine (((Target.targets_yields bound rules).seqLeft (symbol_keeps "=")).many bound).bind
    fun targets each => (check_keeps _).andThen fun _ => ?_
  refine (marksOf_yields rules .value).bind fun value here => (isNext_keeps _).andThen fun _ => ?_
  refine (check_keeps _).andThen fun _ => .pure ?_
  exact .append (.flatMap fun target member => (each target member).marks) here

/-- A target whose value is computed from the one that it has. -/
theorem computed_yields (rules : rule.Grounded tokens) :
    Yields tokens (computed rule) (Grounded tokens) := by
  refine (Target.one_yields rules).bind fun target first => ?_
  refine (Expression.symbolOf_keeps _).andThen fun _ => ?_
  exact (marksOf_yields rules .value).bind fun _ second => .pure (first.marks.append second)

/-- An assignment is tried only if a token for one stands in the line, so the two cases come
from different ways to parse and not from an alternative. -/
theorem valuesOrAssignment_yields (rules : rule.Grounded tokens) :
    Yields tokens (valuesOrAssignment bound rule) (Grounded tokens) := by
  have values := marksOf_yields rules .value
  have assignment := (ascribed_yields rules).orElse
    ((assigned_yields bound rules).orElse ((computed_yields rules).orElse values))
  intro c marks d within parsed
  rw [valuesOrAssignment.eq_def] at parsed
  split at parsed
  · exact assignment c marks d within parsed
  · exact values c marks d within parsed

/-- The new name of what is imported is marked. -/
theorem alias?_yields : Yields tokens alias? (Grounded tokens) := by
  refine ((word_keeps "as").seqRight nameMark_yields).option.bind fun mark held => ?_
  cases mark with
  | none => exact .pure .nil
  | some mark => exact .pure (.cons (held mark rfl) .nil)

/-- A module is named by a dotted name. -/
theorem importedModule_yields : Yields tokens (importedModule bound) (Grounded tokens) :=
  (dottedName_yields bound).bind fun _ here => alias?_yields.bind fun _ other =>
    .pure (here.marks.append other)

/-- A name that is imported is marked even though it is looked up elsewhere. -/
theorem importedName_yields : Yields tokens importedName (Grounded tokens) :=
  nameMark_yields.bind fun _ word => alias?_yields.bind fun _ other => .pure (.cons word other)

/-- A star imports everything and marks nothing. In parentheses there may be a comma at the
end. -/
theorem importedNames_yields : Yields tokens (importedNames bound) (Grounded tokens) := by
  refine (taken_keeps _).andThen fun _ => .ite (fun _ => .pure .nil) fun _ => ?_
  refine (taken_keeps _).andThen fun _ => .ite (fun _ => ?_) fun _ => ?_
  · refine importedName_yields.bind fun first here => ?_
    refine (importedName_yields.listed bound).bind fun rest others => ?_
    exact (symbol_keeps _).andThen fun _ => .pure (here.append (.flatten others))
  · refine importedName_yields.bind fun first here => ?_
    exact (((symbol_keeps ",").seqRight importedName_yields).many bound).bind fun _ others =>
      .pure (here.append (.flatten others))

/-- The points before the name of a module are symbols. -/
theorem origin_yields : Yields tokens (origin bound) (Grounded tokens) := by
  refine ((satisfy_yields _).many bound).andThen fun dots => (isNext_keeps _).andThen fun _ => ?_
  refine .ite (fun _ => .pure .nil) fun _ => ?_
  exact .map ((dottedName_yields bound).mono fun _ => (·.marks))

/-- An import of modules, or of names from one. -/
theorem imported_yields : Yields tokens (imported bound) (Grounded tokens) := by
  refine (taken_keeps _).andThen fun _ => .ite (fun _ => ?_) fun _ => ?_
  · refine (importedModule_yields bound).bind fun first here => ?_
    exact (((symbol_keeps ",").seqRight (importedModule_yields bound)).many bound).bind
      fun _ others => .pure (here.append (.flatten others))
  · refine (word_keeps _).andThen fun _ => (origin_yields bound).bind fun source here => ?_
    refine (word_keeps _).andThen fun _ => ?_
    exact (importedNames_yields bound).bind fun _ others => .pure (here.append others)

/-- Names that are declared to belong elsewhere. -/
theorem nameList_yields : Yields tokens (nameList bound) (Grounded tokens) :=
  nameMark_yields.bind fun _ word =>
    (((symbol_keeps ",").seqRight nameMark_yields).many bound).bind fun _ others =>
      .pure (.cons word others)

/-- A parameter of a type is marked as a name, before its limit and its default. -/
theorem typeParameter_yields (rules : rule.Grounded tokens) :
    Yields tokens (typeParameter rule) (Grounded tokens) := by
  have limits := marksOf_yields rules .expression
  refine (taken_keeps _).andThen fun star => ?_
  refine .branch (.pure trivial) (taken_keeps _) fun two _ => .when loseBroken_keeps ?_
  refine nameMark_yields.bind fun mark word => ?_
  refine .branch (.pure (by simp)) ((symbol_keeps ":").seqRight limits).option fun limit first => ?_
  refine .bind (.option (.andThen (symbol_keeps "=") fun _ =>
    .branch (taken_keeps _) (.pure trivial) fun _ _ => limits)) fun value second => ?_
  exact .pure (.cons word ((Grounded.getD first).append (.getD second)))

/-- They stand in brackets, if there are any. -/
theorem typeParameters_yields (rules : rule.Grounded tokens) :
    Yields tokens (typeParameters bound rule) (Grounded tokens) := by
  refine (taken_keeps _).andThen fun _ => .ite (fun _ => ?_) fun _ => .pure .nil
  refine (typeParameter_yields rules).bind fun first here => ?_
  refine ((typeParameter_yields rules).listed bound).bind fun rest others => ?_
  exact (symbol_keeps _).andThen fun _ => .pure (here.append (.flatten others))

/-- A name for a type. The faults of its parameters come last, their marks first. -/
theorem typeAlias_yields (rules : rule.Grounded tokens) :
    Yields tokens (typeAlias bound rule) (Grounded tokens) := by
  refine (word_keeps _).andThen fun _ => nameMark_yields.bind fun mark word => ?_
  refine (typeParameters_yields bound rules).apart.bind fun parameters here => ?_
  refine (symbol_keeps _).andThen fun _ => (marksOf_yields rules _).bind fun value other => ?_
  exact (report?_keeps _).andThen fun _ => .pure (.cons word (here.append other))

/-- Nothing or values; this and the next three are keywords with what belongs to them. -/
theorem returned_yields (rules : rule.Grounded tokens) (t : Token) :
    Yields tokens (returned rule t) (Grounded tokens) := by
  refine (rules .values).option.bind fun values held => ?_
  cases values with
  | none => exact .pure .nil
  | some piece => exact (partedAfter_keeps _ _ _).andThen fun _ => .pure (held piece rfl).marks

/-- What is raised may have a cause. -/
theorem raised_yields (rules : rule.Grounded tokens) (t : Token) :
    Yields tokens (raised rule t) (Grounded tokens) := by
  refine (rules .expression).option.bind fun raised held => ?_
  cases raised with
  | none => exact .pure .nil
  | some piece =>
    have here := (held piece rfl).marks
    refine (token?_yields _).andThen fun source => ?_
    cases source with
    | none => exact (partedAfter_keeps _ _ _).andThen fun _ => .pure here
    | some source =>
      refine (rules .expression).bind fun cause other => ?_
      refine (partedAfter_keeps _ _ _).andThen fun _ => ?_
      refine (partedAfter_keeps _ _ _).andThen fun _ => ?_
      refine (partedBefore_keeps _ _ _).andThen fun _ => ?_
      exact .pure (here.append other.marks)

/-- What is asserted may have a message. -/
theorem asserted_yields (rules : rule.Grounded tokens) (t : Token) :
    Yields tokens (asserted rule t) (Grounded tokens) := by
  refine (rules .expression).bind fun test here => ?_
  refine ((symbol_keeps ",").seqRight (marksOf_yields rules _)).option.bind fun note held => ?_
  exact (partedAfter_keeps _ _ _).andThen fun _ => .pure (here.marks.append (.getD held))

/-- What is deleted is a list of targets. -/
theorem deleted_yields (rules : rule.Grounded tokens) (t : Token) :
    Yields tokens (deleted bound rule t) (Grounded tokens) :=
  (Target.listOf_yields bound (rules .deletable)).bind fun _ here =>
    (partedAfter_keeps _ _ _).andThen fun _ => .pure here.marks

/-- The next token decides which small statement it is. A type alias is tried before values
because its keyword may be a name. -/
theorem small_yields (rules : rule.Grounded tokens) :
    Yields tokens (small bound rule) (Grounded tokens) := by
  have values := valuesOrAssignment_yields bound rules
  refine peek?_yields.andThen fun next => ?_
  cases next with
  | none => exact .failure
  | some t =>
    refine .ite (fun _ => next_keeps.seqRight (.pure .nil)) fun _ => ?_
    refine .ite (fun _ => next_keeps.seqRight (returned_yields rules t)) fun _ => ?_
    refine .ite (fun _ => next_keeps.seqRight (raised_yields rules t)) fun _ => ?_
    refine .ite (fun _ => next_keeps.seqRight (asserted_yields rules t)) fun _ => ?_
    refine .ite (fun _ => next_keeps.seqRight (deleted_yields bound rules t)) fun _ => ?_
    refine .ite (fun _ => next_keeps.seqRight (nameList_yields bound)) fun _ => ?_
    refine .ite (fun _ => imported_yields bound) fun _ => (areNext_keeps _ _).andThen fun _ => ?_
    refine .ite (fun _ => next_keeps.seqRight (imported_yields bound)) fun _ => ?_
    exact .ite (fun _ => (typeAlias_yields bound rules).orElse values) fun _ => values

/-- Small statements on one line. -/
theorem line_yields (rules : rule.Grounded tokens) :
    Yields tokens (line bound rule) (Grounded tokens) := by
  refine (small_yields bound rules).bind fun first here => ?_
  refine (((symbol_keeps ";").seqRight (small_yields bound rules)).many bound).bind
    fun rest others => ?_
  exact (taken_keeps _).andThen fun _ => (ofKind_keeps _).andThen fun _ =>
    .pure (here.append (.flatten others))

end Line

namespace Statement

open Line (marksOf_yields)

variable {block : Parser (List Mark)}

/-- The block of a statement; blocks at the next depth of nesting are given. -/
theorem body_yields (blocks : Yields tokens block (Grounded tokens)) :
    Yields tokens (body block) (Grounded tokens) := (symbol_keeps _).seqRight blocks

/-- What is done otherwise, if anything. -/
theorem otherwise_yields (blocks : Yields tokens block (Grounded tokens)) :
    Yields tokens (otherwise block) (Grounded tokens) :=
  (taken_keeps _).andThen fun _ => .ite (fun _ => body_yields blocks) fun _ => .pure .nil

/-- A conditional, by induction on its further tests. The space after its keyword is looked
at when the rest was parsed. -/
theorem conditional_yields (rules : rule.Grounded tokens)
    (blocks : Yields tokens block (Grounded tokens)) (rounds : Nat) (t : Token) :
    Yields tokens (conditional rule block rounds t) (Grounded tokens) := by
  induction rounds generalizing t with
  | zero => exact .failure
  | succ rounds inductionHypothesis =>
    refine (rules .named).bind fun test first => (body_yields blocks).bind fun inner second => ?_
    refine (token?_yields _).andThen fun next => ?_
    have close (rest : List Mark) (third : Grounded tokens rest) : Yields tokens
        (partedAfter t test (.after "if") >>= fun _ => pure (test.marks ++ inner ++ rest))
        (Grounded tokens) :=
      (partedAfter_keeps _ _ _).andThen fun _ => .pure ((first.marks.append second).append third)
    cases next with
    | some t => exact (inductionHypothesis t).bind close
    | none => exact (otherwise_yields blocks).bind close

/-- A loop with a test. -/
theorem testLoop_yields (rules : rule.Grounded tokens)
    (blocks : Yields tokens block (Grounded tokens)) (t : Token) :
    Yields tokens (testLoop rule block t) (Grounded tokens) := by
  refine (rules .named).bind fun test first => (body_yields blocks).bind fun inner second => ?_
  refine (otherwise_yields blocks).bind fun rest third => ?_
  refine (partedAfter_keeps _ _ _).andThen fun _ => ?_
  exact .pure ((first.marks.append second).append third)

/-- A loop over a source has targets, which are marked before the source. -/
theorem loop_yields (rules : rule.Grounded tokens)
    (blocks : Yields tokens block (Grounded tokens)) :
    Yields tokens (loop bound rule block) (Grounded tokens) := by
  refine (word_keeps _).andThen fun _ => ?_
  refine (Target.targets_yields bound rules).bind fun target first => ?_
  refine (word_keeps _).andThen fun _ => (rules .values).bind fun source second => ?_
  refine (body_yields blocks).bind fun inner third => ?_
  refine (otherwise_yields blocks).bind fun rest last => ?_
  refine (partedAfter_keeps _ _ _).andThen fun _ => (partedBefore_keeps _ _ _).andThen fun _ => ?_
  refine (partedAfter_keeps _ _ _).andThen fun _ => .pure ?_
  exact ((first.marks.append second.marks).append third).append last

/-- A context may be given a target. -/
theorem context_yields (rules : rule.Grounded tokens) :
    Yields tokens (context rule) fun found => Grounded tokens found.2 := by
  refine (rules .expression).bind fun value here => (token?_yields _).andThen fun keyword => ?_
  cases keyword with
  | none => exact .pure here.marks
  | some t =>
    refine (Target.starred_yields rules).bind fun target other => ?_
    refine (isNext_keeps _).andThen fun _ => ?_
    refine (check_keeps _).andThen fun _ => (partedAfter_keeps _ _ _).andThen fun _ => ?_
    exact (partedBefore_keeps _ _ _).andThen fun _ => .pure (here.marks.append other.marks)

/-- Contexts in parentheses are tried first. Both ways end at the colon, so the block
follows once. -/
theorem entering_yields (rules : rule.Grounded tokens)
    (blocks : Yields tokens block (Grounded tokens)) :
    Yields tokens (entering bound rule block) (Grounded tokens) := by
  have one := context_yields rules
  refine (word_keeps _).andThen fun t => ?_
  refine (show Yields tokens _ fun found => Grounded tokens found.1 from .orElse ?_ ?_).bind
    fun found here => (body_yields blocks).bind fun inner other => ?_
  · refine (symbol_keeps _).andThen fun _ => one.bind fun first here => ?_
    refine (one.listed bound).bind fun rest others => (symbol_keeps _).andThen fun _ => ?_
    refine (isNext_keeps _).andThen fun _ => (check_keeps _).andThen fun _ => .pure ?_
    exact here.append (.flatMap others)
  · refine one.bind fun first here => ?_
    refine (((symbol_keeps ",").seqRight one).many bound).bind fun rest others => ?_
    refine (isNext_keeps _).andThen fun _ => (check_keeps _).andThen fun _ => .pure ?_
    exact here.append (.flatMap others)
  · dsimp only
    split
    · exact (partedAfter_keeps _ _ _).andThen fun _ => .pure (here.append other)
    · exact .pure (here.append other)

/-- The types of a handler; the check of their spaces, which comes later, takes no
token from elsewhere. -/
theorem handled_yields (rules : rule.Grounded tokens) (star : Bool) (t : Token) :
    Yields tokens (handled bound rule star t) fun found =>
      Grounded tokens found.1 ∧ Keeps tokens found.2 := by
  refine (rules .expression).bind fun first here => ?_
  have spaces (piece : Piece) : Keeps tokens
      (if star then pure () else partedAfter t piece .afterExcept) :=
    .ite (fun _ => .pure trivial) fun _ => partedAfter_keeps _ _ _
  refine (taken_keeps _).andThen fun _ => .ite (fun _ => ?_) fun _ => ?_
  · refine (rules .expression).bind fun second other => ?_
    refine ((rules .expression).listed bound).bind fun rest others => ?_
    refine loseGap_keeps.andThen fun _ => .pure ⟨?_, spaces _⟩
    exact (here.tuple (List.forall_mem_cons.mpr ⟨other, others⟩) rest.2).marks
  refine (token?_yields _).andThen fun keyword => ?_
  cases keyword with
  | none => exact loseGap_keeps.andThen fun _ => .pure ⟨here.marks, spaces _⟩
  | some keyword =>
    refine nameMark_yields.bind fun mark word => .pure ⟨here.marks.append (.cons word .nil), ?_⟩
    exact (spaces _).seqRight (.ite (fun _ => .pure trivial) fun _ => partedBefore_keeps _ _ _)

/-- A handler without a type has only its block. -/
theorem handler_yields (rules : rule.Grounded tokens)
    (blocks : Yields tokens block (Grounded tokens)) (star : Bool) :
    Yields tokens (handler bound rule block star) fun found => Grounded tokens found.1 := by
  refine (word_keeps _).andThen fun t => .when (symbol_keeps _) ?_
  refine (isNext_keeps _).andThen fun _ => .ite (fun _ => ?_) fun _ => ?_
  · exact (body_yields blocks).bind fun _ here => .pure here
  refine (handled_yields bound rules star t).apart.bind fun found held => ?_
  refine (body_yields blocks).bind fun inner other => (report?_keeps _).andThen fun _ => ?_
  exact held.2.andThen fun _ => .pure (held.1.append other)

/-- A statement with handlers needs one of them or something to be done at the end. What is
marked is the same in both cases. -/
theorem guarded_yields (rules : rule.Grounded tokens)
    (blocks : Yields tokens block (Grounded tokens)) :
    Yields tokens (guarded bound rule block) (Grounded tokens) := by
  refine (body_yields blocks).bind fun inner first => (areNext_keeps _ _).andThen fun star => ?_
  refine ((handler_yields bound rules blocks star).many bound).bind fun handlers others => ?_
  have close {rest last : List Mark} (third : Grounded tokens rest)
      (fourth : Grounded tokens last) : Yields tokens (do
        if handlers.dropLast.any (·.2) then report .earlyHandler
        pure (inner ++ handlers.flatMap (·.1) ++ rest ++ last)) (Grounded tokens) := by
    refine .when (report_keeps _) (.pure ?_)
    exact ((first.append (.flatMap others)).append third).append fourth
  refine .branch (.pure .nil) (otherwise_yields blocks) fun rest third => ?_
  refine (taken_keeps _).andThen fun _ => .ite (fun _ => ?_) fun _ => ?_
  · exact (body_yields blocks).bind fun _ fourth => close third fourth
  · exact (check_keeps _).andThen fun _ => .pureThen (close third .nil)

/-- A function marks its name, its parameters with their annotations, its result and its
block. -/
theorem function_yields (rules : rule.Grounded tokens)
    (blocks : Yields tokens block (Grounded tokens)) :
    Yields tokens (function bound rule block) fun found => Grounded tokens found.1 := by
  have grounded : Parameter.Rules.Grounded tokens
      { default := rule .expression
        ascription := some (rule .expression)
        starAscription := some (Expression.starred rule <|> rule .expression)
        anonymous := false } := by
    refine ⟨rules .expression, ?_, ?_⟩ <;> rintro p ⟨⟩
    · exact rules .expression
    · exact (Expression.starred_yields rules).orElse (rules .expression)
  refine (word_keeps _).andThen fun _ => nameMark_yields.bind fun mark word => ?_
  refine (Line.typeParameters_yields bound rules).bind fun types first => ?_
  refine (symbol_keeps _).andThen fun _ => ?_
  refine (Parameter.list_yields grounded _ bound).bind fun parameters second => ?_
  refine (symbol_keeps _).andThen fun _ => ?_
  refine ((symbol_keeps "->").seqRight (marksOf_yields rules .expression)).option.apart.bind
    fun result held => (body_yields blocks).bind fun inner last => .pure ?_
  exact .cons word (((first.append second).append (.getD held)).append last)

/-- A class marks its name, its arguments and its block. -/
theorem classDefinition_yields (rules : rule.Grounded tokens)
    (blocks : Yields tokens block (Grounded tokens)) :
    Yields tokens (classDefinition bound rule block) fun found => Grounded tokens found.1 := by
  refine (word_keeps _).andThen fun _ => nameMark_yields.bind fun mark word => ?_
  refine (Line.typeParameters_yields bound rules).bind fun types first => ?_
  refine .bind (.apart (.andThen (taken_keeps (isSymbol "(")) fun _ => .ite
    (fun _ => (Expression.baseList_yields rules bound .any).seqLeft (symbol_keeps ")"))
    fun _ => .pure .nil)) fun arguments second => ?_
  refine (body_yields blocks).bind fun inner last => (report?_keeps _).andThen fun _ => .pure ?_
  exact .cons word ((first.append second).append last)

/-- The next keyword decides which of the two it is. -/
theorem definition_yields (rules : rule.Grounded tokens)
    (blocks : Yields tokens block (Grounded tokens)) :
    Yields tokens (definition bound rule block) fun found => Grounded tokens found.1 := by
  refine (isNext_keeps _).andThen fun _ => .ite (fun _ => ?_) fun _ => ?_
  · exact classDefinition_yields bound rules blocks
  · exact (taken_keeps _).andThen fun _ => function_yields bound rules blocks

/-- Decorators stand before a definition. Their faults and its own are noted in another
order than they are parsed in, which no mark depends on. -/
theorem decorated_yields (rules : rule.Grounded tokens)
    (blocks : Yields tokens block (Grounded tokens)) :
    Yields tokens (decorated bound rule block) (Grounded tokens) := by
  refine ((((symbol_keeps "@").seqRight (marksOf_yields rules .named)).seqLeft
    (ofKind_keeps .newline)).many bound).apart.bind fun decorators others => ?_
  refine (definition_yields bound rules blocks).bind fun found here => ?_
  refine (report?_keeps _).andThen fun _ => (report?_keeps _).andThen fun _ => .pure ?_
  exact .append (.flatten others) here

/-- One case has a pattern, perhaps a test, and a block. -/
theorem caseBlock_yields (rules : rule.Grounded tokens)
    (blocks : Yields tokens block (Grounded tokens)) :
    Yields tokens (caseBlock bound rule block) (Grounded tokens) := by
  refine (word_keeps _).andThen fun _ => ?_
  refine (CasePattern.top_yields (rules .field) bound).bind fun pattern first => ?_
  refine ((word_keeps "if").seqRight (marksOf_yields rules .named)).option.bind fun guard held => ?_
  exact (body_yields blocks).bind fun _ last => .pure ((first.append (.getD held)).append last)

/-- What cases are compared with may be several values. -/
theorem subject_yields (rules : rule.Grounded tokens) :
    Yields tokens (subject bound rule) (Grounded tokens) := by
  refine (Expression.displayItem_yields rules).bind fun first here => ?_
  refine ((Expression.displayItem_yields rules).listed bound).bind fun rest others => ?_
  refine (check_keeps _).andThen fun _ => .pure ?_
  exact here.marks.append (.flatMap fun p member => (others p member).marks)

/-- A statement of cases has at least one. -/
theorem matching_yields (rules : rule.Grounded tokens)
    (blocks : Yields tokens block (Grounded tokens)) :
    Yields tokens (matching bound rule block) (Grounded tokens) := by
  have one := caseBlock_yields bound rules blocks
  refine (word_keeps _).andThen fun _ => (subject_yields bound rules).bind fun value here => ?_
  refine (symbol_keeps _).andThen fun _ => (ofKind_keeps _).andThen fun _ => ?_
  refine (ofKind_keeps _).andThen fun _ => one.bind fun first second => ?_
  refine (one.many bound).bind fun rest others => (ofKind_keeps _).andThen fun _ => .pure ?_
  exact (here.append second).append (.flatten others)

/-- Loops, contexts and functions can be asynchronous. -/
theorem asynchronous_yields (rules : rule.Grounded tokens)
    (blocks : Yields tokens block (Grounded tokens)) :
    Yields tokens (asynchronous bound rule block) (Grounded tokens) := by
  refine (isNext_keeps _).andThen fun _ =>
    .ite (fun _ => loop_yields bound rules blocks) fun _ => ?_
  refine (isNext_keeps _).andThen fun _ =>
    .ite (fun _ => entering_yields bound rules blocks) fun _ => ?_
  exact (function_yields bound rules blocks).bind fun _ here =>
    (report?_keeps _).andThen fun _ => .pure here

/-- The next token decides which statement it is. A statement of cases is tried before a
line because its keyword may be a name. -/
theorem statement_yields (rules : rule.Grounded tokens)
    (blocks : Yields tokens block (Grounded tokens)) :
    Yields tokens (statement bound rule block) (Grounded tokens) := by
  have lines := Line.line_yields bound rules
  refine peek?_yields.andThen fun next => ?_
  cases next with
  | none => exact .failure
  | some t =>
    refine .ite (fun _ => next_keeps.seqRight (conditional_yields rules blocks bound t)) fun _ => ?_
    refine .ite (fun _ => next_keeps.seqRight (testLoop_yields rules blocks t)) fun _ => ?_
    refine .ite (fun _ => loop_yields bound rules blocks) fun _ => ?_
    refine .ite (fun _ => entering_yields bound rules blocks) fun _ => ?_
    refine .ite (fun _ => next_keeps.seqRight (guarded_yields bound rules blocks)) fun _ => ?_
    refine .ite (fun _ => decorated_yields bound rules blocks) fun _ => ?_
    refine .ite (fun _ => next_keeps.seqRight (asynchronous_yields bound rules blocks)) fun _ => ?_
    exact .ite (fun _ => (matching_yields bound rules blocks).orElse lines) fun _ => lines

/-- Blocks are grounded at every depth of nesting. -/
theorem blockAt_yields (rules : rule.Grounded tokens) (depth : Nat) :
    Yields tokens (blockAt bound rule depth) (Grounded tokens) := by
  induction depth with
  | zero => exact .failure
  | succ depth inductionHypothesis =>
    have one := statement_yields bound rules inductionHypothesis
    refine (taken_keeps _).andThen fun _ => .ite (fun _ => ?_) fun _ => Line.line_yields bound rules
    refine (ofKind_keeps _).andThen fun _ => one.bind fun first here => ?_
    refine (one.many bound).bind fun rest others => (ofKind_keeps _).andThen fun _ => ?_
    exact .pure (here.append (.flatten others))

end Statement

namespace Module

/-- The marks of a module are grounded in its tokens. -/
theorem parse?_grounded {marks : List Mark} {cursor : Cursor}
    (parses : parse? tokens = some (marks, cursor)) : Grounded tokens marks := by
  rw [parse?] at parses
  split at parses
  · rename_i found d parsed
    have rules : Rules.Grounded tokens (Expression.parse (4 * tokens.length + 16)) :=
      Expression.parse_grounded _
    have blocks := Statement.blockAt_yields (4 * tokens.length + 16) rules (4 * tokens.length + 16)
    have each := ((Statement.statement_yields _ rules blocks).many _ _ _ _ (fun _ => id) parsed).2
    split at parses
    · cases parses
      exact .flatten each
    · cases parses
  · cases parses

/-- Every name in a module that a text is stands in the text as a word. -/
theorem read?_grounded {t : Text} {module : Module} (reads : read? t = some module) :
    ∃ tokens rewordings, tokens? t = some (tokens, rewordings) ∧ Grounded tokens module.marks := by
  obtain ⟨⟨tokens, margins⟩, lexed, reads⟩ := Option.bind_eq_some_iff.mp reads
  obtain ⟨⟨marks, cursor⟩, parsed, reads⟩ := Option.bind_eq_some_iff.mp reads
  cases reads
  exact ⟨tokens, margins, lexed, parse?_grounded parsed⟩

end Module

end Emend.Grammar
