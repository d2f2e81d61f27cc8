import Emend.Proofs.Ways
import Emend.Suggestor.Matching

/-!
# What the built-in patterns read

Each built-in pattern leads from a spot to another one by reading a text of a
certain form. The forms are said here without the matcher: an exported name in
braces or as the default, with white space where it may stand, and a line that
holds a call on the console. White space and word characters are read in
stretches of any length, so a form leaves open how long each stretch is.
-/

namespace Emend

/-- White space only, or nothing. -/
def Text.AllBlank (u : Text) : Prop := ∀ c ∈ u, isBlank c = true

/-- Blanks and tabs only, or nothing. -/
def Text.AllIndent (u : Text) : Prop := ∀ c ∈ u, c = ' ' ∨ c = '\t'

/-- Neither a semicolon nor a newline. -/
def Text.Unbroken (u : Text) : Prop := ∀ c ∈ u, c ≠ ';' ∧ c ≠ '\n'

/-- Word characters only, or nothing. -/
def Text.AllWord (u : Text) : Prop := ∀ c ∈ u, isWord c = true

instance (u : Text) : Decidable u.AllBlank := List.decidableBAll _ u

instance (u : Text) : Decidable u.AllIndent := List.decidableBAll _ u

instance (u : Text) : Decidable u.Unbroken := List.decidableBAll _ u

instance (u : Text) : Decidable u.AllWord := List.decidableBAll _ u

/-- A stretch of characters of one kind, or of anything else, ends in one place only. -/
theorem Text.stretch_unique {α : Type} {kind : α → Prop} {u v rest other : List α} {c d : α}
    (first : ∀ x ∈ u, kind x) (second : ∀ x ∈ v, kind x) (stops : ¬ kind c) (ends : ¬ kind d)
    (same : u ++ c :: rest = v ++ d :: other) : u = v ∧ c = d ∧ rest = other := by
  induction u generalizing v with
  | nil =>
    cases v with
    | nil => exact ⟨rfl, List.cons.inj same⟩
    | cons x v =>
      obtain ⟨rfl, -⟩ := List.cons.inj same
      exact absurd (second c List.mem_cons_self) stops
  | cons x u inductionHypothesis =>
    cases v with
    | nil =>
      obtain ⟨rfl, -⟩ := List.cons.inj same
      exact absurd (first x List.mem_cons_self) ends
    | cons y v =>
      obtain ⟨rfl, further⟩ := List.cons.inj same
      obtain ⟨rfl, stopped⟩ := inductionHypothesis
        (fun z member => first z (List.mem_cons_of_mem _ member))
        (fun z member => second z (List.mem_cons_of_mem _ member)) further
      exact ⟨rfl, stopped⟩

/-- A character is where it stands last in a text or before that. -/
theorem Text.split_at_last {u v rest other : Text} {c : Char} (last : c ∉ rest)
    (same : u ++ c :: rest = v ++ c :: other) :
    u = v ∧ rest = other ∨
      ∃ between : Text, u = v ++ c :: between ∧ other = between ++ c :: rest := by
  rcases List.append_eq_append_iff.mp same with ⟨z, longer, tail⟩ | ⟨z, longer, tail⟩
  · cases z with
    | nil =>
      rw [List.append_nil] at longer
      exact .inl ⟨longer.symm, (List.cons.inj tail).2⟩
    | cons d z =>
      have further : rest = z ++ c :: other := (List.cons.inj tail).2
      rw [further] at last
      exact absurd (List.mem_append_right z List.mem_cons_self) last
  · cases z with
    | nil =>
      rw [List.append_nil] at longer
      exact .inl ⟨longer, (List.cons.inj tail).2.symm⟩
    | cons d z =>
      obtain ⟨rfl, further⟩ := List.cons.inj tail
      exact .inr ⟨z, longer, further⟩

namespace Pattern

/-- The texts that a pattern reads, wherever it stands; no group of it matches. -/
structure Takes (p : Pattern) (form : Text → Prop) : Prop where
  mem_iff : ∀ {text : Text} {s t : Spot}, t ∈ p.ways text s ↔ ∃ u, form u ∧ s.Reads u t

section Forms

variable {p : Pattern} {list : List Pattern} {form after : Text → Prop}

theorem Takes.congr {other : Text → Prop} (takes : p.Takes form)
    (same : ∀ u, form u ↔ other u) : p.Takes other where
  mem_iff := by
    intro text s t
    rw [takes.mem_iff]
    simp only [same]

theorem takes_nothing : (sequence []).Takes (· = []) where
  mem_iff := by
    intro text s t
    rw [sequence, mem_ways_empty]
    constructor
    · rintro rfl
      exact ⟨[], rfl, .refl t⟩
    · rintro ⟨u, rfl, reads⟩
      exact reads.eq_of_nil

/-- Patterns one after the other read texts one after the other. -/
theorem Takes.cons (first : p.Takes form) (rest : (sequence list).Takes after) :
    (sequence (p :: list)).Takes fun u => ∃ a b, form a ∧ after b ∧ u = a ++ b where
  mem_iff := by
    intro text s t
    rw [mem_ways_sequence_cons]
    constructor
    · rintro ⟨m, head, tail⟩
      obtain ⟨a, formed, reads⟩ := first.mem_iff.mp head
      obtain ⟨b, follows, further⟩ := rest.mem_iff.mp tail
      exact ⟨a ++ b, ⟨a, b, formed, follows, rfl⟩, reads.trans further⟩
    · rintro ⟨u, ⟨a, b, formed, follows, rfl⟩, reads⟩
      obtain ⟨m, front, back⟩ := Spot.reads_append_iff.mp reads
      exact ⟨m, first.mem_iff.mpr ⟨a, formed, front⟩, rest.mem_iff.mpr ⟨b, follows, back⟩⟩

theorem Takes.optional (takes : p.Takes form) :
    (optional p).Takes fun u => form u ∨ u = [] where
  mem_iff := by
    intro text s t
    rw [Pattern.optional, mem_ways_optional, takes.mem_iff]
    constructor
    · rintro (⟨u, formed, reads⟩ | rfl)
      · exact ⟨u, .inl formed, reads⟩
      · exact ⟨[], .inr rfl, .refl t⟩
    · rintro ⟨u, formed | rfl, reads⟩
      · exact .inl ⟨u, formed, reads⟩
      · exact .inr reads.eq_of_nil

/-- Looking ahead for a form finds it in what follows, and reads nothing. -/
theorem Takes.mem_ways_look (takes : p.Takes form) {text : Text} {s t : Spot} :
    t ∈ (look 0 false p).ways text s ↔ (∃ u rest, form u ∧ s.rest = u ++ rest) ∧ t = s := by
  have kept {found : Spot} (way : found ∈ p.ways text s) :
      ({ s with captures := found.captures } : Spot) = s := by
    obtain ⟨u, -, reads⟩ := takes.mem_iff.mp way
    rw [reads.captures]
  rw [mem_ways_lookAhead]
  constructor
  · rintro ⟨found, first, rfl⟩
    have way := List.mem_of_mem_head? first
    obtain ⟨u, formed, reads⟩ := takes.mem_iff.mp way
    exact ⟨⟨u, found.rest, formed, reads.rest⟩, kept way⟩
  · rintro ⟨⟨u, rest, formed, follows⟩, rfl⟩
    obtain ⟨m, reads, -⟩ := Spot.exists_reads follows
    have way : m ∈ p.ways text t := takes.mem_iff.mpr ⟨u, formed, reads⟩
    obtain ⟨found, first⟩ : ∃ found, (p.ways text t).head? = some found :=
      Option.isSome_iff_exists.mp (List.isSome_head?.mpr (List.ne_nil_of_mem way))
    exact ⟨found, first, (kept (List.mem_of_mem_head? first)).symm⟩

theorem takes_literal (u : Text) : (literal u).Takes (· = u) where
  mem_iff := by
    intro text s t
    rw [mem_ways_literal]
    simp

theorem takes_only (c : Char) : (only c).Takes (· = [c]) where
  mem_iff := by
    intro text s t
    rw [only, mem_ways_char]
    simp

/-- A repeated class of characters, by what its test says of a character. -/
theorem takes_class {test : CharTest} {passes : Char → Prop} (least : Nat)
    (holds : ∀ c, test.holds c = true ↔ passes c) :
    (times least none .most (.one test)).Takes
      fun u => least ≤ u.length ∧ ∀ c ∈ u, passes c where
  mem_iff := by
    intro text s t
    rw [mem_ways_times_one]
    simp only [holds, and_comm]

theorem takes_spaces (least : Nat) :
    (spaces least).Takes fun u => least ≤ u.length ∧ u.AllBlank := by
  apply takes_class
  intro c
  simp [CharTest.holds, SetItem.holds, CharKind.holds, Casing.lower]

theorem takes_wordCharacters : wordCharacters.Takes fun u => 1 ≤ u.length ∧ u.AllWord := by
  apply takes_class
  intro c
  simp [CharTest.holds, SetItem.holds, CharKind.holds, Casing.lower]

theorem holds_char (c d : Char) : SetItem.holds .exact c (.char d) = decide (c = d) := by
  simp [SetItem.holds, SetItem.char, Char.toNat_inj]

theorem takes_indentation : indentation.Takes fun u => 0 ≤ u.length ∧ u.AllIndent := by
  apply takes_class
  intro c
  simp [CharTest.holds, holds_char]

/-- What a call on the console may have between its parentheses. -/
theorem takes_arguments :
    (times 0 none .most (.one (.set [.char ';', .char '\n'] true .exact))).Takes
      fun u => 0 ≤ u.length ∧ u.Unbroken := by
  apply takes_class
  intro c
  simp [CharTest.holds, holds_char]

end Forms

end Pattern

/-- The alias of an exported name. -/
structure Alias where
  before : Text
  word : Text
  after : Text
  parted : before ≠ []
  named : word ≠ []
  before_blank : before.AllBlank
  word_word : word.AllWord
  after_blank : after.AllBlank

/-- An alias as it is written. -/
def Alias.text (a : Alias) : Text := "as".toList ++ (a.before ++ (a.word ++ a.after))

/-- What follows a name in the braces of an export up to the brace that closes them. -/
inductive Closing : Text → Prop
  | plain {gap : Text} (blank : gap.AllBlank) : Closing (gap ++ ['\x7d'])
  | aliased {gap : Text} (blank : gap.AllBlank) (a : Alias) : Closing (gap ++ (a.text ++ ['\x7d']))

namespace Pattern

theorem takes_aliasing : aliasing.Takes fun u => ∃ a : Alias, u = a.text := by
  refine ((takes_literal _).cons ((takes_spaces 1).cons (takes_wordCharacters.cons
    ((takes_spaces 0).cons takes_nothing)))).congr ?_
  intro u
  constructor
  · rintro ⟨_, _, rfl, ⟨before, _, ⟨parted, blank⟩, ⟨word, _, ⟨named, letters⟩,
      ⟨after, _, ⟨-, trailing⟩, rfl, rfl⟩, rfl⟩, rfl⟩, rfl⟩
    refine ⟨⟨before, word, after, List.length_pos_iff.mp parted, List.length_pos_iff.mp named,
      blank, letters, trailing⟩, ?_⟩
    simp [Alias.text]
  · rintro ⟨a, rfl⟩
    exact ⟨_, _, rfl, ⟨_, _, ⟨List.length_pos_iff.mpr a.parted, a.before_blank⟩, ⟨_, _,
      ⟨List.length_pos_iff.mpr a.named, a.word_word⟩, ⟨_, _, ⟨Nat.zero_le _, a.after_blank⟩, rfl,
      (List.append_nil _).symm⟩, rfl⟩, rfl⟩, rfl⟩

theorem takes_closing : closing.Takes Closing := by
  refine ((takes_spaces 0).cons (takes_aliasing.optional.cons
    ((takes_only _).cons takes_nothing))).congr ?_
  intro u
  constructor
  · rintro ⟨gap, _, ⟨-, blank⟩, ⟨_, _, ⟨a, rfl⟩ | rfl, ⟨_, _, rfl, rfl, rfl⟩, rfl⟩, rfl⟩
    · exact .aliased blank a
    · exact .plain blank
  · rintro (⟨blank⟩ | ⟨blank, a⟩)
    · exact ⟨_, _, ⟨Nat.zero_le _, blank⟩, ⟨_, _, .inr rfl, ⟨_, _, rfl, rfl, rfl⟩, rfl⟩, rfl⟩
    · exact ⟨_, _, ⟨Nat.zero_le _, blank⟩, ⟨_, _, .inl ⟨a, rfl⟩, ⟨_, _, rfl, rfl, rfl⟩, rfl⟩, rfl⟩

end Pattern

/-- What precedes an exported name in braces. -/
inductive BraceHead : Text → Prop
  | mk {gap inner : Text} (gap_blank : gap.AllBlank) (inner_blank : inner.AllBlank) :
      BraceHead ("export".toList ++ (gap ++ ('\x7b' :: inner)))

/-- What precedes a name that is the default export. -/
inductive DefaultHead : Text → Prop
  | mk {gap inner : Text} (parted : gap ≠ []) (named : inner ≠ []) (gap_blank : gap.AllBlank)
      (inner_blank : inner.AllBlank) :
      DefaultHead ("export".toList ++ (gap ++ ("default".toList ++ inner)))

theorem BraceHead.length_pos {head : Text} (formed : BraceHead head) : 0 < head.length := by
  cases formed
  simp

theorem DefaultHead.length_pos {head : Text} (formed : DefaultHead head) : 0 < head.length := by
  cases formed
  simp

/-- A spot at an edge of a word. -/
def Spot.AtEdge (s : Spot) : Prop := Anchor.holds s (.wordEdge false) = true

namespace Pattern

variable {text name : Text} {s t : Spot}

theorem mem_ways_edge : t ∈ edge.ways text s ↔ s.AtEdge ∧ t = s := mem_ways_place

theorem takes_braceHead :
    (sequence [literal "export".toList, spaces 0, only '\x7b', spaces 0]).Takes BraceHead := by
  refine ((takes_literal _).cons ((takes_spaces 0).cons ((takes_only _).cons
    ((takes_spaces 0).cons takes_nothing)))).congr ?_
  intro u
  constructor
  · rintro ⟨_, _, rfl, ⟨gap, _, ⟨-, blank⟩, ⟨_, _, rfl, ⟨inner, _, ⟨-, white⟩, rfl, rfl⟩, rfl⟩,
      rfl⟩, rfl⟩
    rw [List.append_nil]
    exact .mk blank white
  · rintro ⟨blank, white⟩
    exact ⟨_, _, rfl, ⟨_, _, ⟨Nat.zero_le _, blank⟩, ⟨_, _, rfl, ⟨_, _, ⟨Nat.zero_le _, white⟩, rfl,
      (List.append_nil _).symm⟩, rfl⟩, rfl⟩, rfl⟩

theorem takes_defaultHead :
    (sequence [literal "export".toList, spaces 1, literal "default".toList, spaces 1]).Takes
      DefaultHead := by
  refine ((takes_literal _).cons ((takes_spaces 1).cons ((takes_literal _).cons
    ((takes_spaces 1).cons takes_nothing)))).congr ?_
  intro u
  constructor
  · rintro ⟨_, _, rfl, ⟨gap, _, ⟨parted, blank⟩, ⟨_, _, rfl, ⟨inner, _, ⟨named, white⟩, rfl, rfl⟩,
      rfl⟩, rfl⟩, rfl⟩
    rw [List.append_nil]
    exact .mk (List.length_pos_iff.mp parted) (List.length_pos_iff.mp named) blank white
  · rintro ⟨parted, named, blank, white⟩
    exact ⟨_, _, rfl, ⟨_, _, ⟨List.length_pos_iff.mpr parted, blank⟩, ⟨_, _, rfl, ⟨_, _,
      ⟨List.length_pos_iff.mpr named, white⟩, rfl, (List.append_nil _).symm⟩, rfl⟩, rfl⟩, rfl⟩

/-- A name is captured and must end at the edge of a word. -/
theorem mem_ways_name {index : Nat} {list : List Pattern} :
    t ∈ (sequence (.group index (literal name) :: edge :: list)).ways text s ↔
      ∃ n, s.Reads name n ∧ n.AtEdge ∧
        t ∈ (sequence list).ways text (n.capture index s.offset) := by
  simp only [mem_ways_sequence_cons, mem_ways_group, mem_ways_literal, mem_ways_edge]
  constructor
  · rintro ⟨_, ⟨n, reads, rfl⟩, _, ⟨ended, rfl⟩, rest⟩
    exact ⟨n, reads, ended, rest⟩
  · rintro ⟨n, reads, ended, rest⟩
    exact ⟨_, ⟨n, reads, rfl⟩, _, ⟨ended, rfl⟩, rest⟩

/-- An exported name in braces: its head, the name, and what closes the braces after it. -/
theorem mem_ways_exportedName :
    t ∈ (exportedName name).ways text s ↔
      s.AtEdge ∧ ∃ head m n, BraceHead head ∧ s.Reads head m ∧ m.Reads name n ∧ n.AtEdge ∧
        (∃ u rest, Closing u ∧ n.rest = u ++ rest) ∧ t = n.capture 1 m.offset := by
  have split : exportedName name = sequence (edge ::
      ([literal "export".toList, spaces 0, only '\x7b', spaces 0] ++
        [.group 1 (literal name), edge, .look 0 false closing])) := rfl
  rw [split, mem_ways_sequence_cons]
  simp only [mem_ways_edge, mem_ways_sequence_append, mem_ways_name]
  constructor
  · rintro ⟨_, ⟨starts, rfl⟩, m, before, n, reads, ended, closes⟩
    obtain ⟨head, formed, heads⟩ := takes_braceHead.mem_iff.mp before
    obtain ⟨closed, rfl⟩ := takes_closing.mem_ways_look.mp closes
    exact ⟨starts, head, m, n, formed, heads, reads, ended, closed, rfl⟩
  · rintro ⟨starts, head, m, n, formed, heads, reads, ended, closed, rfl⟩
    exact ⟨s, ⟨starts, rfl⟩, m, takes_braceHead.mem_iff.mpr ⟨head, formed, heads⟩, n, reads, ended,
      takes_closing.mem_ways_look.mpr ⟨closed, rfl⟩⟩

/-- A name as the default export: its head and the name. -/
theorem mem_ways_exportedDefault :
    t ∈ (exportedDefault name).ways text s ↔
      s.AtEdge ∧ ∃ head m n, DefaultHead head ∧ s.Reads head m ∧ m.Reads name n ∧ n.AtEdge ∧
        t = n.capture 2 m.offset := by
  have split : exportedDefault name = sequence (edge ::
      ([literal "export".toList, spaces 1, literal "default".toList, spaces 1] ++
        [.group 2 (literal name), edge])) := rfl
  rw [split, mem_ways_sequence_cons]
  simp only [mem_ways_edge, mem_ways_sequence_append, mem_ways_name]
  constructor
  · rintro ⟨_, ⟨starts, rfl⟩, m, before, n, reads, ended, last⟩
    obtain ⟨head, formed, heads⟩ := takes_defaultHead.mem_iff.mp before
    exact ⟨starts, head, m, n, formed, heads, reads, ended, mem_ways_empty.mp last⟩
  · rintro ⟨starts, head, m, n, formed, heads, reads, ended, rfl⟩
    exact ⟨s, ⟨starts, rfl⟩, m, takes_defaultHead.mem_iff.mpr ⟨head, formed, heads⟩, n, reads,
      ended, mem_ways_empty.mpr rfl⟩

end Pattern

/-- The start of a line with a call on the console, up to the name of the function. -/
structure CallHead where
  indent : Text
  name : Text
  indent_blank : indent.AllIndent
  named : name ≠ []
  name_word : name.AllWord

/-- The line of a call of which `tail` follows the parenthesis that opens its arguments. -/
def CallHead.line (head : CallHead) (tail : Text) : Text :=
  head.indent ++ ("console.".toList ++ (head.name ++ ('(' :: tail)))

theorem CallHead.line_length_pos (head : CallHead) (tail : Text) :
    0 < (head.line tail).length := by
  simp only [line, List.length_append, List.length_cons]
  omega

/-- The parts of a line that holds a call on the console and nothing else, up to the end of the
line. -/
structure ConsoleCall extends CallHead where
  arguments : Text
  semicolon : Text
  trail : Text
  arguments_unbroken : arguments.Unbroken
  one_semicolon : semicolon = [';'] ∨ semicolon = []
  trail_blank : trail.AllIndent

/-- What ends a line before the rest of a text: a newline, perhaps after a carriage return, or
nothing where the text ends. -/
inductive EndsLine : Text → Text → Prop
  | returned {rest : Text} : EndsLine ['\r', '\n'] rest
  | newline {rest : Text} : EndsLine ['\n'] rest
  | none : EndsLine [] []

namespace ConsoleCall

/-- What follows the parenthesis that opens the arguments. -/
def opened (call : ConsoleCall) : Text :=
  call.arguments ++ (')' :: (call.semicolon ++ call.trail))

/-- The line as it is written. -/
def text (call : ConsoleCall) : Text := call.line call.opened

end ConsoleCall

namespace Pattern

theorem takes_consoleCall :
    (sequence [indentation, literal "console.".toList, wordCharacters, only '(',
      .times 0 none .most (.one (.set [.char ';', .char '\n'] true .exact)), only ')',
      optional (only ';'), indentation]).Takes fun u => ∃ call : ConsoleCall, u = call.text := by
  refine (takes_indentation.cons ((takes_literal _).cons (takes_wordCharacters.cons
    ((takes_only _).cons (takes_arguments.cons ((takes_only _).cons ((takes_only _).optional.cons
      (takes_indentation.cons takes_nothing)))))))).congr ?_
  intro u
  constructor
  · rintro ⟨indent, _, ⟨-, blank⟩, ⟨_, _, rfl, ⟨name, _, ⟨named, letters⟩, ⟨_, _, rfl,
      ⟨arguments, _, ⟨-, unbroken⟩, ⟨_, _, rfl, ⟨semicolon, _, single, ⟨trail, _, ⟨-, white⟩, rfl,
      rfl⟩, rfl⟩, rfl⟩, rfl⟩, rfl⟩, rfl⟩, rfl⟩, rfl⟩
    refine ⟨⟨⟨indent, name, blank, List.length_pos_iff.mp named, letters⟩, arguments, semicolon,
      trail, unbroken, single, white⟩, ?_⟩
    simp [ConsoleCall.text, CallHead.line, ConsoleCall.opened]
  · rintro ⟨call, rfl⟩
    refine ⟨_, _, ⟨Nat.zero_le _, call.indent_blank⟩, ⟨_, _, rfl, ⟨_, _,
      ⟨List.length_pos_iff.mpr call.named, call.name_word⟩, ⟨_, _, rfl, ⟨_, _,
      ⟨Nat.zero_le _, call.arguments_unbroken⟩, ⟨_, _, rfl, ⟨_, _, call.one_semicolon, ⟨_, _,
      ⟨Nat.zero_le _, call.trail_blank⟩, rfl, rfl⟩, rfl⟩, rfl⟩, rfl⟩, rfl⟩, rfl⟩, rfl⟩, ?_⟩
    simp [ConsoleCall.text, CallHead.line, ConsoleCall.opened]

theorem takes_newline :
    (sequence [optional (only '\r'), only '\n']).Takes
      fun u => u = ['\r', '\n'] ∨ u = ['\n'] := by
  refine ((takes_only _).optional.cons ((takes_only _).cons takes_nothing)).congr ?_
  intro u
  constructor
  · rintro ⟨_, _, rfl | rfl, ⟨_, _, rfl, rfl, rfl⟩, rfl⟩
    · exact .inl rfl
    · exact .inr rfl
  · rintro (rfl | rfl)
    · exact ⟨_, _, .inl rfl, ⟨_, _, rfl, rfl, rfl⟩, rfl⟩
    · exact ⟨_, _, .inr rfl, ⟨_, _, rfl, rfl, rfl⟩, rfl⟩

theorem mem_ways_lineEnd :
    t ∈ (either (sequence [optional (only '\r'), only '\n']) (.place .textEnd)).ways text s ↔
      ∃ ending, s.Reads ending t ∧ EndsLine ending t.rest := by
  rw [mem_ways_either, takes_newline.mem_iff, mem_ways_place, Anchor.holds, List.isEmpty_iff]
  constructor
  · rintro (⟨u, rfl | rfl, reads⟩ | ⟨ended, rfl⟩)
    · exact ⟨_, reads, .returned⟩
    · exact ⟨_, reads, .newline⟩
    · exact ⟨[], .refl t, ended ▸ .none⟩
  · rintro ⟨u, reads, ends⟩
    generalize remains : t.rest = rest at ends
    cases ends with
    | returned => exact .inl ⟨_, .inl rfl, reads⟩
    | newline => exact .inl ⟨_, .inr rfl, reads⟩
    | none => exact .inr ⟨reads.rest.trans remains, reads.eq_of_nil⟩

/-- A line with a call on the console: it starts a line, and it ends with the line or the text. -/
theorem mem_ways_consoleLine :
    t ∈ consoleLine.ways text s ↔
      Anchor.holds s .lineStart = true ∧ ∃ (call : ConsoleCall) (ending : Text),
        s.Reads (call.text ++ ending) t ∧ EndsLine ending t.rest := by
  have split : consoleLine = sequence (.place .lineStart ::
      ([indentation, literal "console.".toList, wordCharacters, only '(',
        .times 0 none .most (.one (.set [.char ';', .char '\n'] true .exact)), only ')',
        optional (only ';'), indentation] ++
      [.either (sequence [optional (only '\r'), only '\n']) (.place .textEnd)])) := rfl
  rw [split, mem_ways_sequence_cons]
  simp only [mem_ways_place, mem_ways_sequence_append]
  constructor
  · rintro ⟨_, ⟨starts, rfl⟩, m, calls, ended⟩
    obtain ⟨_, ⟨call, rfl⟩, front⟩ := takes_consoleCall.mem_iff.mp calls
    obtain ⟨ending, back, ends⟩ := mem_ways_lineEnd.mp ended
    exact ⟨starts, call, ending, front.trans back, ends⟩
  · rintro ⟨starts, call, ending, reads, ends⟩
    obtain ⟨m, front, back⟩ := Spot.reads_append_iff.mp reads
    exact ⟨s, ⟨starts, rfl⟩, m, takes_consoleCall.mem_iff.mpr ⟨_, ⟨call, rfl⟩, front⟩,
      mem_ways_lineEnd.mpr ⟨ending, back, ends⟩⟩

end Pattern

end Emend
