import Emend.Proofs.Grounding

/-!
# Expressions are grounded

One lemma for each rule of the grammar of expressions: given rules whose pieces are
grounded, its own marks are grounded too. Names enter in few places, as parameters,
as arguments by name, as attributes and as names that are assigned to or looked up;
all other rules only pass marks on.
-/

namespace Emend.Grammar

open Emend.Grammar.Parser

variable {tokens : List Token}

/-- The pieces of all rules are grounded. -/
def Rules.Grounded (tokens : List Token) (rule : Rules) : Prop :=
  ∀ category, Yields tokens (rule category) (Piece.Grounded tokens)

namespace Literal

/-- A number is marked only if it is whole, and a mark of a number holds no name. -/
theorem number_yields : Yields tokens number (Piece.Grounded tokens) := by
  refine (ofKind_keeps _).andThen fun t => .when (report_keeps _) (.pure (.ofMarks ?_ rfl))
  dsimp only
  split
  · exact .cons trivial .nil
  · exact .nil

/-- Strings are marked without being looked into. -/
theorem plainString_yields : Yields tokens plainString fun part => part.piece.Grounded tokens :=
  (ofKind_keeps _).andThen fun _ => .pure (.ofMarks (.cons trivial .nil) rfl)

variable {field : Parser Piece}

/-- Names enter a formatted string through its fields only; the text between them has no
marks. -/
theorem formatParts_yields (grounded : Yields tokens field (Piece.Grounded tokens))
    (bound : Nat) : Yields tokens (formatParts bound field) (Grammar.Grounded tokens) := by
  have skipped : Yields tokens (ofKind .formatText >>= fun _ => pure []) (Grounded tokens) :=
    (ofKind_keeps _).andThen fun _ => .pure .nil
  have held : Yields tokens (symbol "\x7b" >>= fun _ => field >>= fun piece => pure piece.marks)
      (Grounded tokens) :=
    (symbol_keeps _).andThen fun _ => grounded.bind fun _ held => .pure held.marks
  exact ((skipped.orElse held).many bound).bind fun _ each => .pure (.flatten each)

/-- A formatted string has no mark of its own besides those of its parts. -/
theorem formatted_yields (grounded : Yields tokens field (Piece.Grounded tokens)) (bound : Nat) :
    Yields tokens (formatted bound field) fun part => part.piece.Grounded tokens := by
  refine (ofKind_keeps _).andThen fun _ => ?_
  refine (formatParts_yields grounded bound).bind fun _ marks => ?_
  exact (ofKind_keeps _).andThen fun _ => .pure (.ofMarks marks rfl)

/-- Strings that follow one another are one piece, so their marks are those of all of them.
-/
theorem strings_yields (grounded : Yields tokens field (Piece.Grounded tokens)) (bound : Nat) :
    Yields tokens (strings bound field) (Piece.Grounded tokens) := by
  have one := plainString_yields.orElse (formatted_yields grounded bound)
  refine one.bind fun first here => (one.many bound).bind fun rest others => ?_
  refine (report?_keeps _).andThen fun _ => .pure (here.merge ?_)
  intro piece member
  obtain ⟨part, among, rfl⟩ := List.mem_map.mp member
  exact others part among

/-- A conversion is a letter that is read as a word, but it names nothing and is not marked.
-/
theorem conversion_keeps : Keeps tokens conversion := by
  refine (taken_keeps _).andThen fun asked => .ite (fun _ => ?_) fun _ => .pure trivial
  refine loseGap_keeps.andThen fun _ => (satisfy_yields _).andThen fun _ => loseGap_keeps

/-- A field has a value and a format, which may have fields again. The rule for these comes
from the next depth of nesting. -/
theorem field_yields {value nested : Parser Piece}
    (first : Yields tokens value (Piece.Grounded tokens))
    (inner : Yields tokens nested (Piece.Grounded tokens)) (bound : Nat) :
    Yields tokens (Literal.field bound value nested) (Piece.Grounded tokens) := by
  refine first.bind fun piece here => (taken_keeps _).andThen fun _ => ?_
  refine conversion_keeps.andThen fun _ => (taken_keeps _).andThen fun _ => ?_
  refine .branch (formatParts_yields inner bound) (.pure .nil) fun marks others => ?_
  exact (symbol_keeps _).andThen fun _ => .pure (.ofMarks (here.marks.append others) rfl)

end Literal

namespace Parameter

/-- The defaults and annotations of parameters are grounded. -/
structure Rules.Grounded (tokens : List Token) (r : Rules) : Prop where
  default : Yields tokens r.default (Piece.Grounded tokens)
  ascription : ∀ p, r.ascription = some p → Yields tokens p (Piece.Grounded tokens)
  starAscription : ∀ p, r.starAscription = some p → Yields tokens p (Piece.Grounded tokens)

variable {r : Rules}

/-- A parameter and its name are one word. -/
theorem named_yields {ascription : Option (Parser Piece)}
    (grounded : ∀ p, ascription = some p → Yields tokens p (Piece.Grounded tokens)) :
    Yields tokens (named r ascription) (Grammar.Grounded tokens) := by
  refine name_yields.bind fun t word => ?_
  have noted (note : Option Piece) (held : ∀ p, note = some p → p.Grounded tokens) :
      Grammar.Grounded tokens
        ([.parameter t.extent note.isSome r.anonymous, .name t.extent] ++
          (note.map (·.marks)).getD []) := by
    refine .append (.cons word (.cons word .nil)) (.getD fun marks found => ?_)
    obtain ⟨p, here, rfl⟩ := Option.map_eq_some_iff.mp found
    exact (held p here).marks
  cases ascription with
  | none => exact .pure (noted none (by simp))
  | some p =>
    exact ((symbol_keeps ":").seqRight (grounded p rfl)).option.bind fun note held =>
      .pure (noted note held)

/-- One item of a list of parameters. All that it marks are the parameter with its
annotation and the default; a slash or a star alone marks nothing. -/
theorem item_yields (grounded : r.Grounded tokens) (s : State) :
    Yields tokens (item r s) fun found => Grammar.Grounded tokens found.1 := by
  refine (taken_keeps _).andThen fun _ => .ite (fun _ => ?_) fun _ => ?_
  · exact (check_keeps _).andThen fun _ => .pure .nil
  refine (taken_keeps _).andThen fun _ => .ite (fun _ => ?_) fun _ => ?_
  · refine (check_keeps _).andThen fun _ => (isNext_keeps _).andThen fun _ => ?_
    refine .ite (fun _ => ?_) fun _ => .pure .nil
    exact (named_yields grounded.starAscription).bind fun _ marks => .pure marks
  refine (taken_keeps _).andThen fun _ => .ite (fun _ => ?_) fun _ => ?_
  · refine (check_keeps _).andThen fun _ => ?_
    exact (named_yields grounded.ascription).bind fun _ marks => .pure marks
  refine (named_yields grounded.ascription).bind fun marks here => ?_
  refine ((symbol_keeps "=").seqRight grounded.default).option.bind fun value held => ?_
  have both : Grammar.Grounded tokens (marks ++ (value.map (·.marks)).getD []) := by
    refine here.append (.getD fun more found => ?_)
    obtain ⟨p, given, rfl⟩ := Option.map_eq_some_iff.mp found
    exact (held p given).marks
  dsimp only
  split
  · exact .failure
  · exact .pure both
  · exact .pure both
  · exact (check_keeps _).andThen fun _ => .pure both
  · exact (check_keeps _).andThen fun _ => .pure both
  · exact (check_keeps _).andThen fun _ => .pure both

/-- The induction is on the number of items. The state decides what may follow, not what is
marked, so the lemma holds for every state. -/
theorem items_yields (grounded : r.Grounded tokens) (isEnd : Token → Bool) (bound : Nat)
    (s : State) :
    Yields tokens (items r isEnd bound s) fun found => Grammar.Grounded tokens found.1 := by
  induction bound generalizing s with
  | zero => exact .failure
  | succ bound inductionHypothesis =>
    refine (isNext_keeps _).andThen fun _ => .ite (fun _ => ?_) fun _ => ?_
    · exact (check_keeps _).andThen fun _ => .pure .nil
    refine (item_yields grounded s).apart.bind fun found here => ?_
    refine (taken_keeps _).andThen fun _ => .ite (fun _ => ?_) fun _ => ?_
    · exact (inductionHypothesis _).bind fun _ others => .pure (here.append others)
    refine (check_keeps _).andThen fun _ => (isNext_keeps _).andThen fun _ => ?_
    exact (check_keeps _).andThen fun _ => .pure here

/-- The fault of a list is noted at its end and changes no mark. -/
theorem list_yields (grounded : r.Grounded tokens) (isEnd : Token → Bool) (bound : Nat) :
    Yields tokens (list r isEnd bound) (Grammar.Grounded tokens) :=
  (items_yields grounded isEnd bound {}).bind fun _ marks =>
    (report?_keeps _).andThen fun _ => .pure marks

end Parameter

variable {rule : Rules} (bound : Nat)

namespace Target

/-- Whether a target is a name, an attribute or an item is checked and changes no mark. -/
theorem single_yields (rules : rule.Grounded tokens) :
    Yields tokens (single rule) (Piece.Grounded tokens) :=
  (rules .primary).bind fun _ here => (check_keeps _).andThen fun _ => .pure here

/-- A target behind a star keeps its marks. -/
theorem starred_yields (rules : rule.Grounded tokens) :
    Yields tokens (starred rule) (Piece.Grounded tokens) := by
  refine (token?_yields _).andThen fun star => ?_
  cases star with
  | none => exact rules .target
  | some star => exact .map ((rules .target).mono fun _ here => here.starred _)

/-- Targets in parentheses: none, one or a tuple. In all three cases the closing parenthesis
follows, so this is shown once. -/
theorem inParentheses_yields {item : Parser Piece}
    (grounded : Yields tokens item (Piece.Grounded tokens)) :
    Yields tokens (inParentheses bound item) (Piece.Grounded tokens) := by
  refine (symbol_keeps _).andThen fun start => ?_
  -- A closing parenthesis follows whatever was read.
  have close {p : Piece} (here : p.Grounded tokens) : Yields tokens (do
      let stop ← symbol ")"
      check !(← isNext isTrailer)
      pure (p.parenthesised start.extent stop.extent)) (Piece.Grounded tokens) :=
    (symbol_keeps _).andThen fun _ => (isNext_keeps _).andThen fun _ =>
      (check_keeps _).andThen fun _ => .pure (here.parenthesised _ _)
  refine (isNext_keeps _).andThen fun _ => .ite (fun _ => close (.ofMarks .nil rfl)) fun _ => ?_
  refine grounded.bind fun first here => (grounded.listed bound).bind fun rest others => ?_
  refine .ite (fun _ => close (here.tuple others _)) fun _ => .ite (fun _ => ?_) fun _ => close here
  exact (add_keeps _ _).andThen fun _ => close (here.tuple (by simp) _)

/-- Targets in brackets have their marks side by side. -/
theorem inBrackets_yields {item : Parser Piece}
    (grounded : Yields tokens item (Piece.Grounded tokens)) :
    Yields tokens (inBrackets bound item) (Piece.Grounded tokens) := by
  refine (symbol_keeps _).andThen fun start => ?_
  have close {marks : List Mark} (here : Grammar.Grounded tokens marks) : Yields tokens (do
      let stop ← symbol "]"
      check !(← isNext isTrailer)
      pure (.bracketed start.extent stop.extent marks)) (Piece.Grounded tokens) :=
    (symbol_keeps _).andThen fun _ => (isNext_keeps _).andThen fun _ =>
      (check_keeps _).andThen fun _ => .pure (.bracketed _ _ here)
  refine (isNext_keeps _).andThen fun _ => .ite (fun _ => close .nil) fun _ => ?_
  refine grounded.bind fun first here => (grounded.listed bound).bind fun rest others => ?_
  exact close (here.marks.append (.flatMap fun p member => (others p member).marks))

/-- What can be assigned to, by the three forms that are tried in turn. -/
theorem assignable_yields (rules : rule.Grounded tokens) :
    Yields tokens (assignable bound rule) (Piece.Grounded tokens) :=
  (inParentheses_yields bound (starred_yields rules)).orElse <|
    (inBrackets_yields bound (starred_yields rules)).orElse (single_yields rules)

/-- What can be deleted has the same forms, without a star. -/
theorem deletable_yields (rules : rule.Grounded tokens) :
    Yields tokens (deletable bound rule) (Piece.Grounded tokens) :=
  (inParentheses_yields bound (rules .deletable)).orElse <|
    (inBrackets_yields bound (rules .deletable)).orElse (single_yields rules)

/-- A single target without a comma stays what it is; otherwise there is a tuple. -/
theorem listOf_yields {item : Parser Piece}
    (grounded : Yields tokens item (Piece.Grounded tokens)) :
    Yields tokens (listOf bound item) (Piece.Grounded tokens) := by
  refine grounded.bind fun first here => (grounded.listed bound).bind fun rest others => ?_
  exact .ite (fun _ => .pure here) fun _ => .pure (here.tuple others _)

/-- The targets of an assignment or a loop are such a list. -/
theorem targets_yields (rules : rule.Grounded tokens) :
    Yields tokens (targets bound rule) (Piece.Grounded tokens) :=
  listOf_yields bound (starred_yields rules)

/-- A target that stands alone. -/
theorem one_yields (rules : rule.Grounded tokens) :
    Yields tokens (one rule) (Piece.Grounded tokens) :=
  (rules .target).bind fun _ here => (check_keeps _).andThen fun _ => .pure here

end Target

namespace Expression

/-- To look ahead takes no token. The next three lemmas say so of the questions by which a
rule chooses how to go on. -/
theorem startsNamed_keeps : Keeps tokens startsNamed := areNext_keeps _ _

/-- Whether an argument by name follows. -/
theorem startsKeyword_keeps : Keeps tokens startsKeyword := areNext_keeps _ _

/-- Whether a comprehension follows. -/
theorem startsClause_keeps : Keeps tokens startsClause := isNext_keeps _

/-- A test of a clause, whose keyword is no mark. -/
theorem clauseTest_yields (rules : rule.Grounded tokens) :
    Yields tokens (clauseTest rule) fun found => found.2.Grounded tokens :=
  (word_keeps _).andThen fun _ => (rules .disjunction).bind fun _ here =>
    (partedAfter_keeps _ _ _).andThen fun _ => .pure here

/-- The spaces before tests are looked at after all of them were parsed, in turn. -/
theorem testSpaces_keeps (before : Piece) (tests : List (Token × Piece)) :
    Keeps tokens (testSpaces before tests) := by
  induction tests generalizing before with
  | nil => exact .pure trivial
  | cons test rest inductionHypothesis =>
    exact (partedBefore_keeps _ _ _).andThen fun _ => inductionHypothesis _

/-- The clauses of a comprehension. The induction is on their number; a clause contributes
its targets, its source and its tests, and then come those of the clauses inside of it. -/
theorem clauses_yields (rules : rule.Grounded tokens) (rounds : Nat) :
    Yields tokens (clauses bound rule rounds) fun found => Grammar.Grounded tokens found.2 := by
  induction rounds with
  | zero => exact .failure
  | succ rounds inductionHypothesis =>
    refine (token?_yields _).andThen fun wait => (word_keeps _).andThen fun loop => ?_
    refine (Target.targets_yields bound rules).bind fun target first => ?_
    refine (word_keeps _).andThen fun within => (rules .disjunction).bind fun source second => ?_
    refine ((clauseTest_yields rules).many bound).bind fun tests others => ?_
    refine startsClause_keeps.andThen fun _ => ?_
    have nested : Yields tokens (some <$> clauses bound rule rounds) fun inner =>
        ∀ found, inner = some found → Grammar.Grounded tokens found.2 :=
      .map (inductionHypothesis.mono fun found here => by rintro _ ⟨⟩; exact here)
    refine .branch nested (.pure (by simp)) fun inner last => .when (report_keeps _) ?_
    refine (partedAfter_keeps _ _ _).andThen fun _ => (partedBefore_keeps _ _ _).andThen fun _ => ?_
    refine (partedAfter_keeps _ _ _).andThen fun _ => (testSpaces_keeps _ _).andThen fun _ => ?_
    have marks : Grammar.Grounded tokens (target.marks ++ source.marks ++
        tests.flatMap (·.2.marks)) :=
      (first.marks.append second.marks).append
        (.flatMap fun test member => (others test member).marks)
    cases inner with
    | none => exact .pure (marks.append .nil)
    | some found =>
      exact (partedBefore_keeps _ _ _).andThen fun _ => .pure (marks.append (last found rfl))

/-- The item of a comprehension is marked by whoever parsed it. -/
theorem comprehension_yields (rules : rule.Grounded tokens) (item : Piece) :
    Yields tokens (comprehension bound rule item) (Grammar.Grounded tokens) :=
  (clauses_yields bound rules bound).bind fun _ marks =>
    (partedBefore_keeps _ _ _).andThen fun _ => .pure marks

/-- A star in front of an operation keeps its marks. -/
theorem starred_yields (rules : rule.Grounded tokens) :
    Yields tokens (starred rule) (Piece.Grounded tokens) :=
  (symbol_keeps _).andThen fun _ => .map ((rules .sum).mono fun _ here => here.starred _)

/-- An item of a display. -/
theorem displayItem_yields (rules : rule.Grounded tokens) :
    Yields tokens (displayItem rule) (Piece.Grounded tokens) :=
  (starred_yields rules).orElse (rules .named)

/-- What a function yields is another function, values or nothing. -/
theorem yielded_yields (rules : rule.Grounded tokens) :
    Yields tokens (yielded rule) (Piece.Grounded tokens) := by
  refine (word_keeps _).andThen fun t => (token?_yields _).andThen fun source => ?_
  cases source with
  | some source =>
    refine (rules .expression).bind fun piece here => (partedAfter_keeps _ _ _).andThen fun _ => ?_
    exact .pure (.ofMarks here.marks rfl)
  | none =>
    refine (rules .values).option.bind fun values held => ?_
    cases values with
    | some piece =>
      refine (partedAfter_keeps _ _ _).andThen fun _ => .pure (.ofMarks (held piece rfl).marks rfl)
    | none => exact .pure (.ofMarks .nil rfl)

/-- Whatever stands in parentheses, the closing one follows: nothing, what is yielded, a
comprehension, a tuple or a group. -/
theorem parenthesised_yields (rules : rule.Grounded tokens) (start : Token) :
    Yields tokens (parenthesised bound rule start) (Piece.Grounded tokens) := by
  have close {p : Piece} (here : p.Grounded tokens) : Yields tokens
      (symbol ")" >>= fun stop => pure (p.parenthesised start.extent stop.extent))
      (Piece.Grounded tokens) :=
    (symbol_keeps _).andThen fun _ => .pure (here.parenthesised _ _)
  refine (isNext_keeps _).andThen fun _ => .ite (fun _ => close (.ofMarks .nil rfl)) fun _ => ?_
  refine (isNext_keeps _).andThen fun _ => .ite (fun _ => ?_) fun _ => ?_
  · exact (yielded_yields rules).bind fun _ here => close here
  refine (displayItem_yields rules).bind fun first here => ?_
  refine startsClause_keeps.andThen fun _ => .ite (fun _ => ?_) fun _ => ?_
  · refine (comprehension_yields bound rules first).bind fun marks others => ?_
    exact close (.ofMarks (here.marks.append others) rfl)
  refine (isNext_keeps _).andThen fun _ => .ite (fun _ => ?_) fun _ => ?_
  · exact ((displayItem_yields rules).listed bound).bind fun _ others => close (here.tuple others _)
  · exact (check_keeps _).andThen fun _ => close here

/-- A list is a comprehension or has items with commas between them. -/
theorem bracketed_yields (rules : rule.Grounded tokens) (start : Token) :
    Yields tokens (bracketed bound rule start) (Piece.Grounded tokens) := by
  have close {marks : List Mark} (here : Grammar.Grounded tokens marks) : Yields tokens
      (symbol "]" >>= fun stop => pure (.bracketed start.extent stop.extent marks))
      (Piece.Grounded tokens) :=
    (symbol_keeps _).andThen fun _ => .pure (.bracketed _ _ here)
  refine (isNext_keeps _).andThen fun _ => .ite (fun _ => close .nil) fun _ => ?_
  refine (displayItem_yields rules).bind fun first here => ?_
  refine startsClause_keeps.andThen fun _ => .ite (fun _ => ?_) fun _ => ?_
  · exact (comprehension_yields bound rules first).bind fun _ others =>
      close (here.marks.append others)
  · exact ((displayItem_yields rules).listed bound).bind fun _ others =>
      close (here.marks.append (.flatMap fun p member => (others p member).marks))

/-- An entry is a key with its value, or a dictionary behind two stars. -/
theorem entry_yields (rules : rule.Grounded tokens) :
    Yields tokens (entry rule) (Piece.Grounded tokens) := by
  refine (token?_yields _).andThen fun stars => ?_
  cases stars with
  | some stars => exact .map ((rules .sum).mono fun _ here => here.starred _)
  | none =>
    refine (rules .expression).bind fun key first => (symbol_keeps _).andThen fun _ => ?_
    exact (rules .expression).bind fun value second => .pure (first.merge (by simpa using second))

/-- A dictionary and a set differ in their items only. Which one it is shows after the first
item, so the rest is shown for both at once. -/
theorem braced_yields (rules : rule.Grounded tokens) (start : Token) :
    Yields tokens (braced bound rule start) (Piece.Grounded tokens) := by
  have close {marks : List Mark} (here : Grammar.Grounded tokens marks) : Yields tokens
      (symbol "\x7d" >>= fun stop => pure (.bracketed start.extent stop.extent marks))
      (Piece.Grounded tokens) :=
    (symbol_keeps _).andThen fun _ => .pure (.bracketed _ _ here)
  -- After its first item a display goes on as a comprehension or with further items.
  have rest {first : Piece} {item : Parser Piece} (here : first.Grounded tokens)
      (grounded : Yields tokens item (Piece.Grounded tokens)) : Yields tokens (do
        if ← startsClause then
          let marks ← comprehension bound rule first
          let stop ← symbol "\x7d"
          pure (.bracketed start.extent stop.extent (first.marks ++ marks))
        else
          let items ← listed item bound
          let stop ← symbol "\x7d"
          pure (.bracketed start.extent stop.extent
            (first.marks ++ items.1.flatMap (·.marks)))) (Piece.Grounded tokens) := by
    refine startsClause_keeps.andThen fun _ => .ite (fun _ => ?_) fun _ => ?_
    · exact (comprehension_yields bound rules first).bind fun _ others =>
        close (here.marks.append others)
    · exact (grounded.listed bound).bind fun _ others =>
        close (here.marks.append (.flatMap fun p member => (others p member).marks))
  refine (isNext_keeps _).andThen fun _ => .ite (fun _ => close .nil) fun _ => ?_
  refine (isNext_keeps _).andThen fun _ => .ite (fun _ => ?_) fun _ => ?_
  · exact (entry_yields rules).bind fun _ here => rest here (entry_yields rules)
  refine startsNamed_keeps.andThen fun _ => (displayItem_yields rules).bind fun first here => ?_
  refine (isNext_keeps _).andThen fun _ => .ite (fun _ => ?_) fun _ => ?_
  · refine next_keeps.andThen fun _ => (rules .expression).bind fun value second => ?_
    exact rest (here.merge (by simpa using second)) (entry_yields rules)
  · exact rest here (displayItem_yields rules)

/-- The rule that makes names: a constant is a word that is marked as a name but is none to
look up, and any other name is one. -/
theorem nameOrConstant_yields : Yields tokens nameOrConstant (Piece.Grounded tokens) := by
  refine (token?_yields _).bind fun constant found => ?_
  cases constant with
  | some t =>
    obtain ⟨among, passes⟩ := found t rfl
    exact .pure (.ofMarks (.cons (isWord_of_isConstant among passes) .nil) rfl)
  | none =>
    refine name_yields.bind fun t word => .pure ⟨.cons word .nil, ?_⟩
    rintro e ⟨⟩
    exact word

/-- The kind of the next token decides between the smallest parts of expressions. -/
theorem atom_yields (rules : rule.Grounded tokens) :
    Yields tokens (atom bound rule) (Piece.Grounded tokens) := by
  refine peek?_yields.andThen fun next => ?_
  cases next with
  | none => exact .failure
  | some t =>
    dsimp only
    split
    · exact nameOrConstant_yields
    · exact Literal.number_yields
    · exact Literal.strings_yields (rules .field) bound
    · exact Literal.strings_yields (rules .field) bound
    · refine next_keeps.andThen fun _ => ?_
      refine .ite (fun _ => parenthesised_yields bound rules t) fun _ => ?_
      refine .ite (fun _ => bracketed_yields bound rules t) fun _ => ?_
      refine .ite (fun _ => braced_yields bound rules t) fun _ => ?_
      exact .ite (fun _ => .pure (.bracketed _ _ .nil)) fun _ => .failure
    · exact .failure

/-- An argument by name is marked with that name, and it is a word. All others are
expressions. -/
theorem argument_yields (rules : rule.Grounded tokens) (phase : ArgumentPhase) :
    Yields tokens (argument rule phase) fun found => found.1.Grounded tokens := by
  refine (token?_yields _).andThen fun star => ?_
  cases star with
  | some star =>
    refine (check_keeps _).andThen fun _ => (rules .expression).bind fun piece here => ?_
    exact .pure (.ofMarks here.marks rfl)
  | none =>
    refine (taken_keeps _).andThen fun _ => .ite (fun _ => ?_) fun _ => ?_
    · exact (rules .expression).bind fun _ here => .pure here
    refine startsKeyword_keeps.andThen fun _ => .ite (fun _ => ?_) fun _ => ?_
    · refine nameMark_yields.apart.bind fun mark word => (symbol_keeps _).andThen fun _ => ?_
      refine (rules .expression).bind fun piece here => (report?_keeps _).andThen fun _ => ?_
      exact .pure ⟨.cons word here.marks, here.shape⟩
    · exact (check_keeps _).andThen fun _ => (rules .named).bind fun _ here => .pure here

/-- Arguments up to the closing parenthesis, by induction on their number. The phase decides
which of them may follow. -/
theorem argumentList_yields (rules : rule.Grounded tokens) (rounds : Nat) (phase : ArgumentPhase) :
    Yields tokens (argumentList rule rounds phase) (Grammar.Grounded tokens) := by
  induction rounds generalizing phase with
  | zero => exact .failure
  | succ rounds inductionHypothesis =>
    refine (isNext_keeps _).andThen fun _ => .ite (fun _ => .pure .nil) fun _ => ?_
    refine (argument_yields rules phase).bind fun first here => ?_
    refine (taken_keeps _).andThen fun _ => .ite (fun _ => ?_) fun _ => .pure here.marks
    exact (inductionHypothesis _).bind fun _ others => .pure (here.marks.append others)

/-- The arguments of a call are a single comprehension or a list. -/
theorem callArguments_yields (rules : rule.Grounded tokens) :
    Yields tokens (callArguments bound rule) (Grammar.Grounded tokens) := by
  refine (isNext_keeps _).andThen fun _ => .ite (fun _ => .pure .nil) fun _ => ?_
  refine (isNext_keeps _).andThen fun _ => startsKeyword_keeps.andThen fun _ => ?_
  refine (argument_yields rules .any).bind fun first here => ?_
  refine startsClause_keeps.andThen fun _ => .ite (fun _ => ?_) fun _ => ?_
  · refine (check_keeps _).andThen fun _ => ?_
    exact (comprehension_yields bound rules _).bind fun _ others =>
      .pure (here.marks.append others)
  refine (taken_keeps _).andThen fun _ => .ite (fun _ => ?_) fun _ => .pure here.marks
  exact (argumentList_yields rules bound _).bind fun _ others => .pure (here.marks.append others)

/-- The arguments of a class are those of a call in a stricter order, and the order is of no
consequence here. -/
theorem baseList_yields (rules : rule.Grounded tokens) (rounds : Nat) (phase : ArgumentPhase) :
    Yields tokens (baseList rule rounds phase) (Grammar.Grounded tokens) := by
  induction rounds generalizing phase with
  | zero => exact .failure
  | succ rounds inductionHypothesis =>
    refine (isNext_keeps _).andThen fun _ => .ite (fun _ => .pure .nil) fun _ => ?_
    refine (argument_yields rules phase).bind fun first here => ?_
    refine (taken_keeps _).andThen fun _ => .ite (fun _ => ?_) fun _ => .pure here.marks
    exact (inductionHypothesis _).bind fun _ others => .pure (here.marks.append others)

/-- Each of the three parts of a range may be missing, which leaves no mark. -/
theorem slicePart_yields (rules : rule.Grounded tokens) :
    Yields tokens (slicePart rule) (Grammar.Grounded tokens) := by
  have marked (category : Category) :
      Yields tokens (rule category >>= fun piece => pure piece.marks)
      (Grammar.Grounded tokens) :=
    (rules category).bind fun _ here => .pure here.marks
  refine (taken_keeps _).andThen fun _ => .ite (fun _ => marked .expression) fun _ => ?_
  have edge (isEdge : Token → Bool) : Yields tokens
      (isNext isEdge >>= fun ends => if ends then pure [] else
        rule .expression >>= fun piece => pure piece.marks) (Grammar.Grounded tokens) :=
    (isNext_keeps _).andThen fun _ => .ite (fun _ => .pure .nil) fun _ => marked .expression
  refine startsNamed_keeps.andThen fun _ => (isNext_keeps _).andThen fun _ => ?_
  refine .branch (.pure .nil) (.map ((rules .named).mono fun _ => (·.marks))) fun lower first => ?_
  refine .ite (fun _ => .pure first) fun _ => (taken_keeps _).andThen fun _ => ?_
  refine .ite (fun _ => ?_) fun _ => .pure first
  refine (edge _).bind fun upper second => (taken_keeps _).andThen fun _ => ?_
  exact .branch (edge _) (.pure .nil) fun _ third => .pure ((first.append second).append third)

/-- What is taken of a piece. For an attribute its name is marked; for a call the name that
is called is the one that the piece is, if it is one, and this is why a grounded piece says
so of its shape. -/
theorem trailer_yields (rules : rule.Grounded tokens) {whole : Piece}
    (before : whole.Grounded tokens) (t : Token) :
    Yields tokens (trailer bound rule whole t) (Piece.Grounded tokens) := by
  refine next_keeps.andThen fun _ => .ite (fun _ => ?_) fun _ => .ite (fun _ => ?_) fun _ => ?_
  · refine name_yields.bind fun member word => ?_
    exact .pure (.ofMarks (.append (.cons trivial before.marks) (.cons word .nil)) rfl)
  · refine (callArguments_yields bound rules).bind fun marks others => ?_
    refine (symbol_keeps _).andThen fun _ => ?_
    exact .pure (.ofMarks (.append (.cons before.shape before.marks) others) rfl)
  · refine (slicePart_yields rules).bind fun first here => ?_
    refine ((slicePart_yields rules).listed bound).bind fun rest others => ?_
    refine (symbol_keeps _).andThen fun _ => ?_
    exact .pure (.ofMarks ((before.marks.append here).append (.flatten others)) rfl)

/-- All that is taken of a piece, by induction on how much it is. -/
theorem trailers_yields (rules : rule.Grounded tokens) (rounds : Nat) {whole : Piece}
    (before : whole.Grounded tokens) :
    Yields tokens (trailers bound rule rounds whole) (Piece.Grounded tokens) := by
  induction rounds generalizing whole with
  | zero => exact .pure before
  | succ rounds inductionHypothesis =>
    refine peek?_yields.andThen fun next => ?_
    cases next with
    | none => exact .pure before
    | some t =>
      refine .ite (fun _ => ?_) fun _ => .pure before
      refine (trailer_yields bound rules before t).option.bind fun longer held => ?_
      cases longer with
      | none => exact .pure before
      | some longer => exact inductionHypothesis (held longer rfl)

/-- An atom with all that is taken of it. -/
theorem primary_yields (rules : rule.Grounded tokens) :
    Yields tokens (primary bound rule) (Piece.Grounded tokens) :=
  (atom_yields bound rules).bind fun _ here => trailers_yields bound rules bound here

/-- Operators are symbols and no marks. -/
theorem symbolOf_keeps (symbols : List Text) : Keeps tokens (symbolOf symbols) :=
  (satisfy_yields _).keeps

/-- A value that is waited for is no name any more. -/
theorem waited_yields (rules : rule.Grounded tokens) :
    Yields tokens (waited bound rule) (Piece.Grounded tokens) := by
  refine (token?_yields _).andThen fun keyword => ?_
  cases keyword with
  | none => exact primary_yields bound rules
  | some t =>
    refine (primary_yields bound rules).bind fun piece here => ?_
    exact (partedAfter_keeps _ _ _).andThen fun _ => .pure (.ofMarks here.marks rfl)

/-- Nor is one with a sign. -/
theorem operand_yields (rules : rule.Grounded tokens) :
    Yields tokens (operand bound rule) (Piece.Grounded tokens) := by
  refine ((symbolOf_keeps signs).many bound).andThen fun signs => ?_
  refine (waited_yields bound rules).bind fun piece here => ?_
  cases signs with
  | nil => exact .pure here
  | cons t rest => exact .pure (.ofMarks here.marks rfl)

/-- Operands with operators between them are merged; a single one stays what it is. -/
theorem sum_yields (rules : rule.Grounded tokens) :
    Yields tokens (sum bound rule) (Piece.Grounded tokens) := by
  refine (operand_yields bound rules).bind fun first here => ?_
  refine (((symbolOf_keeps _).seqRight (operand_yields bound rules)).many bound).bind
    fun rest others => ?_
  exact .ite (fun _ => .pure here) fun _ => .pure (here.merge others)

/-- What compares is a symbol or up to two keywords. -/
theorem comparator_keeps : Keeps tokens comparator := by
  refine next_keeps.andThen fun t => .ite (fun _ => ?_) fun _ => ?_
  · exact (check_keeps _).andThen fun _ => .pure trivial
  refine .ite (fun _ => .pure trivial) fun _ => .ite (fun _ => ?_) fun _ => ?_
  · exact (word_keeps _).andThen fun _ => .pure trivial
  · exact .ite (fun _ => (token?_yields _).andThen fun _ => .pure trivial) fun _ => .failure

/-- Only the operation after what compares is marked. -/
theorem compared_yields (rules : rule.Grounded tokens) :
    Yields tokens (compared bound rule) fun found => found.2.Grounded tokens :=
  comparator_keeps.andThen fun _ => (sum_yields bound rules).bind fun _ here =>
    .when (partedAfter_keeps _ _ _) (.pure here)

/-- The spaces are looked at in turn, after the whole comparison was parsed. -/
theorem comparatorSpaces_keeps (before : Piece) (rest : List (Comparator × Piece)) :
    Keeps tokens (comparatorSpaces before rest) := by
  induction rest generalizing before with
  | nil => exact .pure trivial
  | cons found rest inductionHypothesis =>
    obtain ⟨c, piece⟩ := found
    rw [comparatorSpaces]
    exact .when (partedBefore_keeps _ _ _) (inductionHypothesis piece)

/-- A chain of comparisons merges its operations. -/
theorem comparison_yields (rules : rule.Grounded tokens) :
    Yields tokens (comparison bound rule) (Piece.Grounded tokens) := by
  refine (sum_yields bound rules).bind fun first here => ?_
  refine ((compared_yields bound rules).many bound).bind fun rest others => ?_
  refine (comparatorSpaces_keeps _ _).andThen fun _ => .ite (fun _ => .pure here) fun _ => ?_
  refine .pure (.ofMarks (here.merge fun piece member => ?_).marks rfl)
  obtain ⟨found, among, rfl⟩ := List.mem_map.mp member
  exact others found among

/-- Denials are laid around a comparison from the inside out and add no marks. -/
theorem inversion_yields (rules : rule.Grounded tokens) :
    Yields tokens (inversion bound rule) (Piece.Grounded tokens) := by
  refine ((word_keeps "not").many bound).andThen fun denials => ?_
  refine (comparison_yields bound rules).bind fun piece here => ?_
  refine .foldlM (fun piece t held => ?_) denials.reverse here
  exact (partedAfter_keeps _ _ _).andThen fun _ => .pure (.ofMarks held.marks rfl)

/-- Conditions with a word between them, by induction on their number: the piece so far is
grounded, and it is merged with one more. -/
theorem joined_yields {part : Parser Piece} (grounded : Yields tokens part (Piece.Grounded tokens))
    (keyword : String) (rounds : Nat) {whole : Piece} (before : whole.Grounded tokens) :
    Yields tokens (joined keyword part rounds whole) (Piece.Grounded tokens) := by
  induction rounds generalizing whole with
  | zero => exact .pure before
  | succ rounds inductionHypothesis =>
    refine (token?_yields _).andThen fun next => ?_
    cases next with
    | none => exact .pure before
    | some t =>
      refine grounded.bind fun piece here => (partedBefore_keeps _ _ _).andThen fun _ => ?_
      refine (partedAfter_keeps _ _ _).andThen fun _ => inductionHypothesis ?_
      exact .ofMarks (before.merge (by simpa using here)).marks rfl

/-- Comparisons that hold together. -/
theorem conjunction_yields (rules : rule.Grounded tokens) :
    Yields tokens (conjunction bound rule) (Piece.Grounded tokens) :=
  (inversion_yields bound rules).bind fun _ here =>
    joined_yields (inversion_yields bound rules) "and" bound here

/-- Conjunctions of which one holds. -/
theorem disjunction_yields (rules : rule.Grounded tokens) :
    Yields tokens (disjunction bound rule) (Piece.Grounded tokens) :=
  (conjunction_yields bound rules).bind fun _ here =>
    joined_yields (conjunction_yields bound rules) "or" bound here

/-- A function without a name has parameters without annotations, which are marked as its
own, and a body. -/
theorem anonymous_yields (rules : rule.Grounded tokens) (start : Token) :
    Yields tokens (anonymous bound rule start) (Piece.Grounded tokens) := by
  have grounded : Parameter.Rules.Grounded tokens
      { default := rule .expression, ascription := none, starAscription := none,
        anonymous := true } := ⟨rules .expression, by simp, by simp⟩
  refine (Parameter.list_yields grounded _ bound).bind fun marks here => ?_
  refine (symbol_keeps _).andThen fun _ => (rules .expression).bind fun body inner => ?_
  exact .pure (.ofMarks (here.append inner.marks) rfl)

/-- The value, the test and the other value of a choice are merged in this order. -/
theorem choice_yields (rules : rule.Grounded tokens) {first : Piece}
    (here : first.Grounded tokens) (fault : Option NodeFault) :
    Yields tokens (choice rule first fault) (Piece.Grounded tokens) := by
  refine (word_keeps _).andThen fun _ => (rules .disjunction).bind fun test second => ?_
  refine (report?_keeps _).andThen fun _ => (word_keeps _).andThen fun _ => ?_
  refine (rules .expression).bind fun other third => ?_
  refine (partedBefore_keeps _ _ _).andThen fun _ => (partedAfter_keeps _ _ _).andThen fun _ => ?_
  refine (partedBefore_keeps _ _ _).andThen fun _ => (partedAfter_keeps _ _ _).andThen fun _ => ?_
  exact .pure (.ofMarks (here.merge (by simpa using ⟨second, third⟩)).marks rfl)

/-- A choice is tried after its first value; if there is none the value stands for itself.
The fault of the value was set aside meanwhile. -/
theorem expression_yields (rules : rule.Grounded tokens) :
    Yields tokens (expression bound rule) (Piece.Grounded tokens) := by
  refine (token?_yields _).andThen fun keyword => ?_
  cases keyword with
  | some t => exact anonymous_yields bound rules t
  | none =>
    refine (disjunction_yields bound rules).apart.bind fun first here => ?_
    refine (choice_yields rules here _).option.bind fun chosen held => ?_
    cases chosen with
    | some piece => exact .pure (held piece rfl)
    | none => exact (report?_keeps _).andThen fun _ => .pure here

/-- A value that is given a name: the name is marked, and the whole is none. -/
theorem named_yields (rules : rule.Grounded tokens) :
    Yields tokens (named bound rule) (Piece.Grounded tokens) := by
  refine startsNamed_keeps.andThen fun _ =>
    .ite (fun _ => ?_) fun _ => expression_yields bound rules
  refine name_yields.bind fun t word => (symbol_keeps _).andThen fun _ => ?_
  refine (rules .expression).bind fun value here => ?_
  exact .pure (.ofMarks (.cons word here.marks) rfl)

/-- Values with commas between them are a list like that of targets. -/
theorem values_yields (rules : rule.Grounded tokens) :
    Yields tokens (values bound rule) (Piece.Grounded tokens) :=
  Target.listOf_yields bound ((starred_yields rules).orElse (expression_yields bound rules))

/-- What may stand to the right of an assignment. -/
theorem value_yields (rules : rule.Grounded tokens) :
    Yields tokens (value bound rule) (Piece.Grounded tokens) :=
  (yielded_yields rules).orElse (values_yields bound rules)

/-- Rules at one depth of nesting are grounded if those at the next are. -/
theorem step_grounded (rules : rule.Grounded tokens) :
    Rules.Grounded tokens (step bound rule) := by
  intro category
  cases category with
  | expression => exact expression_yields bound rules
  | named => exact named_yields bound rules
  | disjunction => exact disjunction_yields bound rules
  | sum => exact sum_yields bound rules
  | primary => exact primary_yields bound rules
  | values => exact values_yields bound rules
  | value => exact value_yields bound rules
  | field => exact Literal.field_yields (value_yields bound rules) (rules .field) bound
  | target => exact Target.assignable_yields bound rules
  | deletable => exact Target.deletable_yields bound rules

/-- Expressions are grounded at every depth of nesting. -/
theorem parse_grounded (depth : Nat) : Rules.Grounded tokens (parse depth) := by
  induction depth with
  | zero => exact fun _ => .failure
  | succ depth inductionHypothesis => exact step_grounded depth inductionHypothesis

end Expression

end Emend.Grammar
