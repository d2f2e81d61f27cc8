import Emend.Grammar.Module

/-!
# Marks are grounded in tokens

The names that a walk over a module meets are words of the module: every mark of a
name, of a called name or of a parameter has the extent of a word among the tokens
that were parsed. The parser may look ahead, try another rule or go back; it never
makes up an extent.

`Parser.Yields` says of a parser that it takes its tokens from a given list and that
its values have a property. It is closed under the ways in which parsers are put
together, so each rule of the grammar has one lemma that follows the text of the rule.
The rules refer back to one another only through `Rules`, and the knot is tied by
induction on the depth of nesting.
-/

namespace Emend.Grammar

/-- An extent is that of a word among some tokens. -/
def Extent.IsWord (tokens : List Token) (e : Extent) : Prop :=
  ∃ t ∈ tokens, t.kind = .word ∧ t.extent = e

/-- The names in a mark are words among some tokens. -/
def Mark.Grounded (tokens : List Token) : Mark → Prop
  | .name e => e.IsWord tokens
  | .parameter e _ _ => e.IsWord tokens
  | .call _ callee => ∀ e, callee = some e → e.IsWord tokens
  | .integer _ | .string _ | .member _ => True

/-- The names in all marks are words among some tokens. -/
def Grounded (tokens : List Token) (marks : List Mark) : Prop := ∀ m ∈ marks, m.Grounded tokens

/-- The names in a parsed expression are words among some tokens, and so is the
expression itself if it is a name. -/
structure Piece.Grounded (tokens : List Token) (p : Piece) : Prop where
  marks : Grammar.Grounded tokens p.marks
  shape : ∀ e, p.shape.name? = some e → e.IsWord tokens

section

variable {tokens : List Token}

namespace Grounded

/-- Without marks there is no name to account for. -/
theorem nil : Grounded tokens [] := by simp [Grounded]

/-- One mark more is one condition more; this and the next lemmas let a rule account for its
marks in the order in which it puts them together. -/
theorem cons {m : Mark} {marks : List Mark} (first : m.Grounded tokens)
    (rest : Grounded tokens marks) : Grounded tokens (m :: marks) :=
  List.forall_mem_cons.mpr ⟨first, rest⟩

/-- Marks of two parts of a rule are accounted for by the parts. -/
theorem append {marks more : List Mark} (first : Grounded tokens marks)
    (second : Grounded tokens more) : Grounded tokens (marks ++ more) :=
  List.forall_mem_append.mpr ⟨first, second⟩

/-- Parts that repeat hand over a list of marks each; it suffices to look at one part. -/
theorem flatten {lists : List (List Mark)} (each : ∀ marks ∈ lists, Grounded tokens marks) :
    Grounded tokens lists.flatten := by
  intro m member
  obtain ⟨marks, among, member⟩ := List.mem_flatten.mp member
  exact each marks among m member

/-- The same where the marks still have to be read off what was parsed. -/
theorem flatMap {α : Type} {values : List α} {marks : α → List Mark}
    (each : ∀ value ∈ values, Grounded tokens (marks value)) :
    Grounded tokens (values.flatMap marks) := by
  intro m member
  obtain ⟨value, among, member⟩ := List.mem_flatMap.mp member
  exact each value among m member

/-- The marks of something that may be missing. -/
theorem getD {marks : Option (List Mark)} (each : ∀ m, marks = some m → Grounded tokens m) :
    Grounded tokens (marks.getD []) := by
  cases marks with
  | none => exact nil
  | some marks => exact each marks rfl

end Grounded

namespace Piece.Grounded

variable {p : Piece}

/-- A piece with other marks that is no name. -/
theorem ofMarks {p : Piece} (marks : Grammar.Grounded tokens p.marks)
    (unnamed : p.shape.name? = none) : p.Grounded tokens :=
  ⟨marks, by simp [unnamed]⟩

/-- Pieces that become one keep their marks, and the whole is no name, even if each of them
is one. -/
theorem merge (grounded : p.Grounded tokens) {rest : List Piece}
    (others : ∀ q ∈ rest, q.Grounded tokens) : (p.merge rest).Grounded tokens :=
  ofMarks (grounded.marks.append (.flatMap fun q member => (others q member).marks)) rfl

/-- A tuple is a merged piece with other contacts, so nothing new is to be shown. -/
theorem tuple (grounded : p.Grounded tokens) {rest : List Piece}
    (others : ∀ q ∈ rest, q.Grounded tokens) (closed : Bool) :
    (p.tuple rest closed).Grounded tokens :=
  ofMarks (grounded.merge others).marks rfl

/-- Brackets put an end to being a name and add no mark. -/
theorem bracketed (start stop : Extent) {marks : List Mark}
    (grounded : Grammar.Grounded tokens marks) :
    (Piece.bracketed start stop marks).Grounded tokens :=
  ofMarks grounded rfl

/-- Parentheses, unlike brackets, leave a name a name: what is called through them is still
looked up by it. -/
theorem parenthesised (grounded : p.Grounded tokens) (start stop : Extent) :
    (p.parenthesised start stop).Grounded tokens :=
  ⟨grounded.marks, grounded.shape⟩

/-- A star keeps the marks behind it and makes no name. -/
theorem starred (grounded : p.Grounded tokens) (star : Extent) :
    (p.starred star).Grounded tokens :=
  ofMarks grounded.marks rfl

end Piece.Grounded

namespace Parser

/-- A parser takes its tokens from a list, and its values have a property. -/
def Yields (tokens : List Token) {α : Type} (p : Parser α) (holds : α → Prop) : Prop :=
  ∀ c a d, c.tokens ⊆ tokens → p c = some (a, d) → d.tokens ⊆ tokens ∧ holds a

/-- A parser takes its tokens from a list. -/
abbrev Keeps (tokens : List Token) {α : Type} (p : Parser α) : Prop :=
  Yields tokens p fun _ => True

namespace Yields

variable {α β : Type} {p q : Parser α} {f : α → Parser β} {holds holds' : α → Prop}
  {after : β → Prop}

/-- What is known of the values of a parser may be forgotten in part. -/
theorem mono (yields : Yields tokens p holds) (weaker : ∀ a, holds a → holds' a) :
    Yields tokens p holds' := by
  intro c a d within parsed
  obtain ⟨left, held⟩ := yields c a d within parsed
  exact ⟨left, weaker a held⟩

/-- Most parsers in front of others are asked for nothing but their tokens. -/
theorem keeps (yields : Yields tokens p holds) : Keeps tokens p := yields.mono fun _ _ => trivial

/-- A value that is made up rather than parsed needs the property from elsewhere. -/
theorem pure {a : α} (held : holds a) : Yields tokens (Pure.pure a) holds := by
  rintro c _ _ within ⟨⟩
  exact ⟨within, held⟩

/-- A parser that refuses has no value to speak of. This is where the bounds on nesting and
on rounds end. -/
theorem failure : Yields tokens (Alternative.failure : Parser α) holds := by
  rintro c _ _ within ⟨⟩

/-- One parser after the other. -/
theorem bind (first : Yields tokens p holds)
    (second : ∀ a, holds a → Yields tokens (f a) after) : Yields tokens (p >>= f) after := by
  intro c b d within parsed
  obtain ⟨⟨a, m⟩, here, parsed⟩ := Option.bind_eq_some_iff.mp parsed
  obtain ⟨left, held⟩ := first c a m within here
  exact second a held m b d left parsed

/-- A parser after one whose value does not matter. -/
theorem andThen (first : Yields tokens p holds) (second : ∀ a, Yields tokens (f a) after) :
    Yields tokens (p >>= f) after :=
  first.bind fun a _ => second a

/-- The form in which a branch without a parser of its own goes on. -/
theorem pureThen {a : α} (further : Yields tokens (f a) after) :
    Yields tokens (Pure.pure a >>= f) after := further

/-- A parser whose value is passed on is asked for the property of what becomes of it. -/
theorem map {g : α → β} (yields : Yields tokens p fun a => after (g a)) :
    Yields tokens (g <$> p) after := by
  intro c b d within parsed
  obtain ⟨⟨a, m⟩, here, parsed⟩ := Option.bind_eq_some_iff.mp parsed
  cases parsed
  exact yields c a d within here

/-- Only the second value is left, so the first parser just has to keep to the tokens. -/
theorem seqRight {r : Parser β} (first : Yields tokens p holds) (second : Yields tokens r after) :
    Yields tokens (p *> r) after :=
  first.andThen fun _ => second

/-- Only the first value is left, and it waits for the second parser to keep to the tokens.
-/
theorem seqLeft {r : Parser β} (first : Yields tokens p holds) (second : Yields tokens r after) :
    Yields tokens (p <* r) holds :=
  first.bind fun _ held => second.andThen fun _ => .pure held

/-- Both ways have to yield. The second one starts where the first did, so no token that the
first has passed is lost or used twice. -/
theorem orElse (first : Yields tokens p holds) (second : Yields tokens q holds) :
    Yields tokens (p <|> q) holds := by
  intro c a d within parsed
  change (p c).orElse (fun _ => q c) = some (a, d) at parsed
  cases tried : p c with
  | none =>
    rw [tried] at parsed
    exact second c a d within parsed
  | some result =>
    rw [tried] at parsed
    cases parsed
    exact first c a d within tried

variable {condition : Prop} [Decidable condition]

/-- A choice that does not depend on the tokens; each side may use the condition that led to
it. -/
theorem ite (yes : condition → Yields tokens p holds) (no : ¬ condition → Yields tokens q holds) :
    Yields tokens (if condition then p else q) holds := by
  split
  · exact yes ‹_›
  · exact no ‹_›

/-- A choice between two parsers, and what follows both. -/
theorem branch (yes : Yields tokens p holds) (no : Yields tokens q holds)
    (further : ∀ a, holds a → Yields tokens (f a) after) :
    Yields tokens (if condition then p >>= f else q >>= f) after :=
  .ite (fun _ => yes.bind further) (fun _ => no.bind further)

/-- A parser that is only run on a condition, and what follows. -/
theorem when {r : Parser β} (first : Yields tokens p holds) (further : Yields tokens r after) :
    Yields tokens (if condition then p >>= fun _ => r else r) after :=
  .ite (fun _ => first.andThen fun _ => further) (fun _ => further)

/-- As many as there are. The induction is on the rounds; the values so far have the
property. -/
theorem many (yields : Yields tokens p holds) (bound : Nat) :
    Yields tokens (Parser.many p bound) fun values => ∀ a ∈ values, holds a := by
  suffices loop : ∀ found : List α, (∀ a ∈ found, holds a) →
      Yields tokens (Parser.many.go p bound found) fun values => ∀ a ∈ values, holds a from
    loop [] (by simp)
  induction bound with
  | zero =>
    rintro found held c _ _ within ⟨⟩
    exact ⟨within, by simpa using held⟩
  | succ bound inductionHypothesis =>
    intro found held c values d within parsed
    rw [many.go] at parsed
    cases here : p c with
    | none =>
      rw [here] at parsed
      cases parsed
      exact ⟨within, by simpa using held⟩
    | some result =>
      obtain ⟨a, m⟩ := result
      rw [here] at parsed
      obtain ⟨left, first⟩ := yields c a m within here
      exact inductionHypothesis (a :: found) (List.forall_mem_cons.mpr ⟨first, held⟩) m values d
        left parsed

/-- A parser that is run once for each of some values, each time on what came before. -/
theorem foldlM {step : β → α → Parser β} (each : ∀ b a, after b → Yields tokens (step b a) after)
    (values : List α) {b : β} (held : after b) : Yields tokens (values.foldlM step b) after := by
  induction values generalizing b with
  | nil => exact .pure held
  | cons a rest inductionHypothesis =>
    rw [List.foldlM_cons]
    exact (each b a held).bind fun _ further => inductionHypothesis further

/-- A value that may be missing has the property if it is there. Where the parser refuses,
the cursor stays and its tokens do as well. -/
theorem option (yields : Yields tokens p holds) :
    Yields tokens (Parser.option p) fun value => ∀ a, value = some a → holds a := by
  intro c value d within parsed
  rw [Parser.option.eq_def] at parsed
  cases here : p c with
  | none =>
    rw [here] at parsed
    cases parsed
    exact ⟨within, by simp⟩
  | some result =>
    obtain ⟨a, m⟩ := result
    rw [here] at parsed
    cases parsed
    obtain ⟨left, held⟩ := yields c a d within here
    exact ⟨left, by rintro _ ⟨⟩; exact held⟩

/-- Faults are no tokens: to set one aside changes nothing that is kept. -/
theorem apart (yields : Yields tokens p holds) :
    Yields tokens (Parser.apart p) fun value => holds value.1 := by
  intro c value d within parsed
  rw [Parser.apart.eq_def] at parsed
  cases here : p { c with fault := none } with
  | none =>
    rw [here] at parsed
    cases parsed
  | some result =>
    obtain ⟨a, m⟩ := result
    rw [here] at parsed
    cases parsed
    exact yields { c with fault := none } a m within here

end Yields

/-- A parser that leaves the tokens as they are. -/
theorem keeps_of_still {α : Type} {p : Parser α}
    (still : ∀ c a d, p c = some (a, d) → d.tokens = c.tokens) : Keeps tokens p := by
  intro c a d within parsed
  exact ⟨still c a d parsed ▸ within, trivial⟩

/-- A token that is looked at is one of those that are left. -/
theorem peek?_yields : Yields tokens peek? fun next => ∀ t, next = some t → t ∈ tokens := by
  rintro c _ _ within ⟨⟩
  exact ⟨within, fun t first => within (List.mem_of_mem_head? first)⟩

/-- The only parser that hands out tokens: it takes the first one that is left, and the test
tells what kind of token it is. -/
theorem satisfy_yields (test : Token → Bool) :
    Yields tokens (satisfy test) fun t => t ∈ tokens ∧ test t = true := by
  intro c t d within parsed
  rw [satisfy.eq_def] at parsed
  split at parsed
  · cases parsed
  rename_i first rest here
  rw [here] at within
  obtain ⟨among, others⟩ := List.cons_subset.mp within
  split at parsed
  · cases parsed
    exact ⟨others, among, ‹_›⟩
  · cases parsed

/-- The same where the token may be missing. -/
theorem token?_yields (test : Token → Bool) :
    Yields tokens (token? test) fun next => ∀ t, next = some t → t ∈ tokens ∧ test t = true := by
  intro c next d within parsed
  rw [token?.eq_def] at parsed
  split at parsed
  · cases parsed
    exact ⟨within, by simp⟩
  rename_i first rest here
  split at parsed
  · cases parsed
    rw [here] at within
    obtain ⟨among, others⟩ := List.cons_subset.mp within
    exact ⟨others, by rintro _ ⟨⟩; exact ⟨among, ‹_›⟩⟩
  · cases parsed
    exact ⟨within, by simp⟩

/-- Any token is taken; nothing is known of it. -/
theorem next_keeps : Keeps tokens next := (satisfy_yields _).keeps

/-- A question about the next token takes none. -/
theorem isNext_keeps (test : Token → Bool) : Keeps tokens (isNext test) :=
  keeps_of_still <| by rintro c _ _ ⟨⟩; rfl

/-- A question about two tokens takes none either, whether there are two or not. -/
theorem areNext_keeps (first second : Token → Bool) : Keeps tokens (areNext first second) :=
  keeps_of_still <| by
    intro c a d parsed
    rw [areNext.eq_def] at parsed
    split at parsed <;> cases parsed <;> rfl

/-- A token that is taken for a symbol or keyword of the rule itself never becomes a mark,
so that it was one of the tokens is of no interest. -/
theorem taken_keeps (test : Token → Bool) : Keeps tokens (taken test) :=
  (token?_yields test).keeps.map

/-- A check refuses or does nothing. -/
theorem check_keeps (condition : Bool) : Keeps tokens (check condition) :=
  .ite (fun _ => .pure trivial) fun _ => .failure

/-- Faults are noted beside the tokens. -/
theorem report_keeps (fault : NodeFault) : Keeps tokens (report fault) :=
  keeps_of_still <| by rintro c _ _ ⟨⟩; rfl

/-- A fault that was set aside is noted later, and there may be none. -/
theorem report?_keeps (fault : Option NodeFault) : Keeps tokens (report? fault) := by
  cases fault with
  | none => exact .pure trivial
  | some fault => exact report_keeps fault

/-- What is not written again is noted as an extent; no mark is made of it. -/
theorem lose_keeps (extent : Extent) : Keeps tokens (lose extent) :=
  .ite (fun _ => keeps_of_still <| by rintro c _ _ ⟨⟩; rfl) fun _ => .pure trivial

/-- The gap before a token is looked at through the token, which stays. -/
theorem loseGap_keeps : Keeps tokens loseGap :=
  peek?_yields.andThen fun next => by
    cases next with
    | none => exact .pure trivial
    | some t => exact lose_keeps _

/-- So is the part of the gap behind a comment or an end of line. -/
theorem loseBroken_keeps : Keeps tokens loseBroken :=
  peek?_yields.andThen fun next => by
    cases next with
    | none => exact .pure trivial
    | some t => exact lose_keeps _

/-- What is written besides is a note as well. -/
theorem add_keeps (offset : Nat) (text : Text) : Keeps tokens (add offset text) :=
  keeps_of_still <| by rintro c _ _ ⟨⟩; rfl

/-- Whether a keyword and an expression touch is decided by extents that were parsed before;
at most a fault is noted. -/
theorem parted_keeps (left right : Extent) (contact : Contact) (place : Crowding) :
    Keeps tokens (parted left right contact place) := by
  refine .ite (fun _ => ?_) fun _ => .pure trivial
  cases contact with
  | free => exact .pure trivial
  | spaced => exact report_keeps _
  | undecided => exact report_keeps _

/-- The space after a keyword, as a case of this. -/
theorem partedAfter_keeps (keyword : Token) (p : Piece) (place : Crowding) :
    Keeps tokens (partedAfter keyword p place) := parted_keeps _ _ _ _

/-- The space before a keyword, likewise. -/
theorem partedBefore_keeps (p : Piece) (keyword : Token) (place : Crowding) :
    Keeps tokens (partedBefore p keyword place) := parted_keeps _ _ _ _

/-- Symbols, keywords and other kinds of tokens are part of a rule and not of its marks; the
next three lemmas say that they are taken from the list and nothing else. -/
theorem symbol_keeps (s : String) : Keeps tokens (symbol s) := (satisfy_yields _).keeps

/-- A keyword. -/
theorem word_keeps (s : String) : Keeps tokens (word s) := (satisfy_yields _).keeps

/-- A token of some kind, such as an end of line or the end of a block. -/
theorem ofKind_keeps (kind : TokenKind) : Keeps tokens (ofKind kind) := (satisfy_yields _).keeps

/-- Values with commas between them: the commas are symbols, so only the values matter. -/
theorem Yields.listed {α : Type} {p : Parser α} {holds : α → Prop}
    (yields : Yields tokens p holds) (bound : Nat) :
    Yields tokens (Parser.listed p bound) fun values => ∀ a ∈ values.1, holds a :=
  (((symbol_keeps ",").seqRight yields).many bound).bind fun _ each =>
    (taken_keeps _).andThen fun _ => .pure each

/-- The token of a name is a word. -/
theorem nameWhere_yields (test : Token → Bool) :
    Yields tokens (nameWhere test) fun t => t.extent.IsWord tokens := by
  refine (satisfy_yields _).bind fun t found => ?_
  have word : t.extent.IsWord tokens := by
    obtain ⟨among, passes⟩ := found
    simp only [isName, Bool.and_eq_true, decide_eq_true_eq] at passes
    exact ⟨t, among, passes.1.1, rfl⟩
  refine .ite (fun _ => .pure word) fun _ => ?_
  exact (report_keeps _).andThen fun _ => .pure word

/-- The rules for names differ only in the words that they admit. -/
theorem name_yields : Yields tokens name fun t => t.extent.IsWord tokens := nameWhere_yields _

/-- The mark of a name is grounded because its extent is that of the token. Every name that
a rule marks for itself comes from here. -/
theorem nameMark_yields : Yields tokens nameMark (Mark.Grounded tokens) :=
  name_yields.bind fun _ word => .pure word

/-- The token of a constant is a word. -/
theorem isWord_of_isConstant {t : Token} (among : t ∈ tokens) (constant : isConstant t = true) :
    t.extent.IsWord tokens := by
  simp only [isConstant, Bool.and_eq_true, decide_eq_true_eq] at constant
  exact ⟨t, among, constant.1, rfl⟩

/-- A name and its attributes. The induction is on the attributes: each of them is a word,
and with the first one the whole stops being a name. -/
theorem dottedName_yields (bound : Nat) :
    Yields tokens (dottedName bound) (Piece.Grounded tokens) := by
  refine name_yields.bind fun first word => ?_
  refine (((symbol_keeps ".").seqRight name_yields).many bound).bind fun rest words => .pure ?_
  -- Every further name adds a mark of its own, and the whole is no name any more.
  have grow (rest : List Token) (words : ∀ t ∈ rest, t.extent.IsWord tokens) (whole : Piece)
      (grounded : whole.Grounded tokens) :
      (rest.foldl
        (fun (whole : Piece) t =>
          { extent := whole.extent.through t.extent
            marks := .member (whole.extent.through t.extent) :: whole.marks ++ [.name t.extent]
            shape := .location })
        whole).Grounded tokens := by
    induction rest generalizing whole with
    | nil => exact grounded
    | cons t rest inductionHypothesis =>
      obtain ⟨here, others⟩ := List.forall_mem_cons.mp words
      apply inductionHypothesis others
      refine .ofMarks (.append (.cons trivial grounded.marks) (.cons here .nil)) rfl
  exact grow rest words _ ⟨.cons word .nil, by rintro e ⟨⟩; exact word⟩

end Parser

end

end Emend.Grammar
