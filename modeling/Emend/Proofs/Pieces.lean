import Emend.Proofs.ScriptNames
import Mathlib.Data.List.SplitBy

/-!
# Words and marks of a text

A text falls into pieces: its words, each as long as it can be, and the characters
between them, each by itself. The pieces are a function of the text, so two ways
to see words in a text that agree on their edges are one.

A template is a list of pieces with holes. If all holes are filled by one word,
what a template gives has the pieces of the template, whatever the word is. The
result of replacing some pieces of a text by a word is such a template, filled
with the new word where the text has the old one.
-/

namespace Emend

namespace Text

section Classes

/-- The stretches of code points in a class whose flips are given in increasing order. -/
def stretches : List Nat → List (Nat × Nat)
  | first :: last :: rest => (first, last) :: stretches rest
  | _ => []

theorem exists_stretch {flips : List Nat} {n : Nat} (closed : flips.length % 2 = 0)
    (member : flipped flips n = true) : ∃ s ∈ stretches flips, s.1 ≤ n ∧ n < s.2 := by
  induction flips using stretches.induct with
  | case1 first last rest inductionHypothesis =>
    by_cases here : first ≤ n ∧ n < last
    · exact ⟨(first, last), List.mem_cons_self, here⟩
    · have later : flipped rest n = true := by
        rw [flipped, flipped] at member
        grind
      have even : rest.length % 2 = 0 := by
        rw [List.length_cons, List.length_cons] at closed
        omega
      obtain ⟨s, listed, inside⟩ := inductionHypothesis even later
      exact ⟨s, List.mem_cons_of_mem _ listed, inside⟩
  | case2 flips short =>
    match flips with
    | [] => cases member
    | [_] => cases closed
    | first :: last :: rest => exact absurd rfl (short first last rest)

/-- No character is both white space and in a word. -/
theorem not_isWord_of_isBlank {c : Char} (blank : isBlank c = true) : isWord c = false := by
  have table : ∀ s ∈ stretches blankFlips, ∀ k < s.2 - s.1,
      flipped wordFlips (s.1 + k) = false := by decide +kernel
  obtain ⟨s, listed, above, below⟩ := exists_stretch rfl blank
  have outside := table s listed (c.toNat - s.1) (by omega)
  rwa [Nat.add_sub_cancel' above] at outside

end Classes

/-- A word: at least one letter, numeral or low line. -/
@[ext]
structure Word where
  text : Text
  filled : text ≠ []
  letters : text.AllWord

/-- The pieces of a text: its words and the single characters between them. -/
def pieces (t : Text) : List Text := t.splitBy fun c d => isWord c && isWord d

/-- The characters of a text as pieces. -/
def singles (u : Text) : List Text := u.map fun c => [c]

section Pieces

variable {t u w : Text} {c : Char}

theorem flatten_pieces (t : Text) : t.pieces.flatten = t := List.flatten_splitBy _ t

theorem nil_not_mem_pieces (t : Text) : [] ∉ t.pieces := List.nil_notMem_splitBy _ t

theorem flatten_singles (u : Text) : (singles u).flatten = u := by
  induction u with
  | nil => rfl
  | cons c u inductionHypothesis =>
    rw [singles, List.map_cons, List.flatten_cons, ← singles, inductionHypothesis]
    rfl

/-- Between two texts that do not meet within a word the pieces are apart. -/
theorem pieces_append (apart : t.getLast?.any isWord = false ∨ u.head?.any isWord = false) :
    (t ++ u).pieces = t.pieces ++ u.pieces := by
  apply List.splitBy_append
  intro c last d first
  rw [last, first, Option.any_some, Option.any_some] at apart
  rcases apart with mark | mark <;> simp [mark]

theorem pieces_singles (marks : ∀ c ∈ u, isWord c = false) (t : Text) :
    (u ++ t).pieces = singles u ++ t.pieces := by
  induction u with
  | nil => rfl
  | cons c u inductionHypothesis =>
    have mark : [c].getLast?.any isWord = false := marks c List.mem_cons_self
    rw [← List.singleton_append, List.append_assoc, pieces_append (.inl mark),
      inductionHypothesis fun d member => marks d (List.mem_cons_of_mem _ member)]
    rfl

theorem pieces_blank (blank : u.AllBlank) (t : Text) : (u ++ t).pieces = singles u ++ t.pieces :=
  pieces_singles (fun c member => not_isWord_of_isBlank (blank c member)) t

theorem pieces_mark (mark : isWord c = false) (t : Text) : pieces (c :: t) = [c] :: t.pieces :=
  pieces_singles (u := [c]) (by simpa using mark) t

theorem isChain_word (letters : w.AllWord) :
    w.IsChain fun c d => (isWord c && isWord d) = true := by
  apply List.Pairwise.isChain
  apply List.pairwise_of_forall_mem_list
  intro c inC d inD
  rw [letters c inC, letters d inD]
  rfl

theorem pieces_word (w : Word) (ended : t.head?.any isWord = false) :
    (w.text ++ t).pieces = w.text :: t.pieces := by
  rw [pieces_append (.inr ended), pieces, List.splitBy_of_isChain w.filled (isChain_word w.letters)]
  rfl

/-- A word among the pieces of a text has no word character next to it. -/
theorem not_isWord_beside {front back : List Text} (split : t.pieces = front ++ w :: back)
    (letters : w.AllWord) :
    front.flatten.getLast?.any isWord = false ∧ back.flatten.head?.any isWord = false := by
  have chain := List.isChain_getLast_head_splitBy (fun c d => isWord c && isWord d) t
  rw [← pieces, split] at chain
  obtain ⟨-, outer, inner⟩ := List.isChain_append.mp chain
  constructor
  · rcases List.eq_nil_or_concat front with rfl | ⟨front, p, rfl⟩
    · rfl
    · obtain ⟨filled, begun, mark⟩ := inner p (by simp) w rfl
      rw [letters _ (List.head_mem begun), Bool.and_true] at mark
      simp [List.getLast?_append, List.getLast?_eq_some_getLast filled, mark]
  · cases back with
    | nil => rfl
    | cons q back =>
      obtain ⟨ended, filled, mark⟩ := (List.isChain_cons_cons.mp outer).1
      rw [letters _ (List.getLast_mem ended), Bool.true_and] at mark
      simp [List.head?_append, List.head?_eq_some_head filled, mark]

theorem eq_nil_of_flatten {list : List Text} (proper : [] ∉ list)
    (empty : list.flatten.length = 0) : list = [] := by
  rw [List.length_eq_zero_iff, List.flatten_eq_nil_iff] at empty
  rw [List.eq_nil_iff_forall_not_mem]
  intro p member
  exact proper (empty p member ▸ member)

/-- Pieces that reach less far are the first of those that reach further. -/
theorem prefix_of_length_le {front back other rest : List Text} (proper : [] ∉ front ++ back)
    (same : front ++ back = other ++ rest)
    (shorter : front.flatten.length ≤ other.flatten.length) :
    ∃ between, other = front ++ between ∧ back = between ++ rest := by
  rcases List.append_eq_append_iff.mp same with ⟨z, longer, follows⟩ | ⟨z, longer, follows⟩
  · exact ⟨z, longer, follows⟩
  · rw [longer, List.flatten_append, List.length_append] at shorter
    have nothing : z = [] :=
      eq_nil_of_flatten (fun member => proper (by simp [longer, member])) (by omega)
    rw [nothing, List.append_nil] at longer
    rw [nothing, List.nil_append] at follows
    exact ⟨[], by rw [longer, List.append_nil], follows.symm⟩

/-- Pieces that reach equally far are the same. -/
theorem eq_of_length_eq {front back other rest : List Text} (proper : [] ∉ front ++ back)
    (same : front ++ back = other ++ rest)
    (level : front.flatten.length = other.flatten.length) : front = other ∧ back = rest := by
  obtain ⟨between, rfl, rfl⟩ := prefix_of_length_le proper same (Nat.le_of_eq level)
  rw [List.flatten_append, List.length_append] at level
  have nothing : between = [] :=
    eq_nil_of_flatten (fun member => proper (by simp [member])) (by omega)
  rw [nothing, List.append_nil]
  exact ⟨rfl, rfl⟩

end Pieces

end Text

/-- A list of pieces with holes. -/
abbrev Template := List (Option Text)

namespace Template

open Text

/-- The pieces of a template with a word in its holes. -/
def fill (template : Template) (word : Text) : List Text := template.map (·.getD word)

theorem fill_cons (piece : Option Text) (template : Template) (word : Text) :
    fill (piece :: template) word = piece.getD word :: template.fill word := rfl

theorem fill_append (first second : Template) (word : Text) :
    fill (first ++ second) word = first.fill word ++ second.fill word := List.map_append

theorem fill_map_some (list : List Text) (word : Text) : fill (list.map some) word = list := by
  rw [fill, List.map_map]
  exact List.map_id _

/-- Whatever word the holes are filled with, the pieces of the resulting text are those of the
template. -/
theorem pieces_fill {template : Template} {old new : Word}
    (pieced : pieces (template.fill old.text).flatten = template.fill old.text) :
    pieces (template.fill new.text).flatten = template.fill new.text := by
  obtain ⟨-, proper, words, chain⟩ := List.splitBy_eq_iff.mp pieced
  refine List.splitBy_eq_iff.mpr ⟨rfl, ?_, ?_, ?_⟩
  · intro member
    obtain ⟨piece, listed, empty⟩ := List.mem_map.mp member
    cases piece with
    | none => exact new.filled empty
    | some p => exact proper (List.mem_map.mpr ⟨some p, listed, empty⟩)
  · intro p member
    obtain ⟨piece, listed, rfl⟩ := List.mem_map.mp member
    cases piece with
    | none => exact isChain_word new.letters
    | some p => exact words p (List.mem_map.mpr ⟨some p, listed, rfl⟩)
  · -- Both ends of a word are word characters, so the chain does not depend on the word.
    rw [fill, List.isChain_map] at chain ⊢
    refine chain.imp ?_
    intro first second beside
    obtain ⟨ended, begun, mark⟩ := beside
    have filled (piece : Option Text) (h : piece.getD old.text ≠ []) :
        piece.getD new.text ≠ [] := by
      cases piece with
      | none => exact new.filled
      | some p => exact h
    have last : isWord ((first.getD new.text).getLast (filled first ended)) =
        isWord ((first.getD old.text).getLast ended) := by
      cases first with
      | none =>
        exact (new.letters _ (List.getLast_mem _)).trans (old.letters _ (List.getLast_mem _)).symm
      | some p => rfl
    have next : isWord ((second.getD new.text).head (filled second begun)) =
        isWord ((second.getD old.text).head begun) := by
      cases second with
      | none => exact (new.letters _ (List.head_mem _)).trans (old.letters _ (List.head_mem _)).symm
      | some p => rfl
    refine ⟨filled first ended, filled second begun, ?_⟩
    rw [last, next]
    exact mark

/-- A hole after pieces is the first one, or it is behind the first one. -/
theorem hole_cases {list : List Text} {template front back : Template}
    (split : list.map some ++ none :: template = front ++ none :: back) :
    front = list.map some ∨ ∃ further, front = list.map some ++ none :: further ∧
      template = further ++ none :: back := by
  rcases List.append_eq_append_iff.mp split with ⟨z, longer, follows⟩ | ⟨z, longer, follows⟩
  · cases z with
    | nil => exact .inl (by rw [longer, List.append_nil])
    | cons piece z =>
      obtain ⟨rfl, further⟩ := List.cons.inj follows
      exact .inr ⟨z, longer, further⟩
  · cases z with
    | nil => exact .inl (by rw [longer, List.append_nil])
    | cons piece z =>
      obtain ⟨rfl, -⟩ := List.cons.inj follows
      have hole : none ∈ list.map some := by
        rw [longer]
        exact List.mem_append_right _ List.mem_cons_self
      simp at hole

/-- Stitching a word over some pieces of a text fills a template that has holes where the patches
start. The induction is on the patches; the pieces are those from the cursor on. -/
theorem exists_template {text old new : Text} {patches : List Patch} {cursor : Nat}
    {list : List Text} (proper : [] ∉ list) (follows : text.drop cursor = list.flatten)
    (chained : patches.Pairwise fun p q => p.stop ≤ q.start)
    (each : ∀ p ∈ patches, p.replacement = new ∧ ∃ front back, list = front ++ old :: back ∧
      p.start = cursor + front.flatten.length ∧ p.stop = p.start + old.length) :
    ∃ template : Template, template.fill old = list ∧
      (template.fill new).flatten = Patch.stitchFrom text cursor patches ∧
      ∀ start, (∃ p ∈ patches, p.start = start) ↔ ∃ front back : Template,
        template = front ++ none :: back ∧ start = cursor + (front.fill old).flatten.length := by
  induction patches generalizing cursor list with
  | nil =>
    refine ⟨list.map some, fill_map_some _ _, ?_, ?_⟩
    · rw [fill_map_some, Patch.stitchFrom, follows]
    · intro start
      constructor
      · rintro ⟨p, member, -⟩
        cases member
      · rintro ⟨front, back, split, -⟩
        have hole : none ∈ list.map some := by
          rw [split]
          exact List.mem_append_right _ List.mem_cons_self
        simp at hole
  | cons p patches inductionHypothesis =>
    obtain ⟨later, chained⟩ := List.pairwise_cons.mp chained
    obtain ⟨rfl, front, back, rfl, start, stop⟩ := each p List.mem_cons_self
    have width : (front ++ [old]).flatten.length = front.flatten.length + old.length := by simp
    have split : front ++ old :: back = (front ++ [old]) ++ back := by simp
    have beyond : text.drop p.stop = back.flatten := by
      have offset : p.stop = cursor + (front ++ [old]).flatten.length := by omega
      rw [offset, ← List.drop_drop, follows, split, @List.flatten_append _ (front ++ [old]),
        List.drop_left]
    have here : text.slice cursor p.start = front.flatten := by
      rw [Text.slice, follows, start, Nat.add_sub_cancel_left, List.flatten_append,
        List.take_left]
    obtain ⟨template, filled, stitched, holes⟩ := inductionHypothesis
      (fun member => proper (by simp [member])) beyond chained (by
        intro q member
        obtain ⟨new, ahead, rest, same, begins, ends⟩ := each q (List.mem_cons_of_mem _ member)
        have after := later q member
        have shorter : (front ++ [old]).flatten.length ≤ ahead.flatten.length := by omega
        rw [split] at same proper
        obtain ⟨between, rfl, rfl⟩ := prefix_of_length_le proper same shorter
        refine ⟨new, between, rest, rfl, ?_, ends⟩
        rw [List.flatten_append, List.length_append] at begins
        omega)
    refine ⟨front.map some ++ none :: template, ?_, ?_, ?_⟩
    · rw [fill_append, fill_map_some, fill_cons, filled]
      rfl
    · rw [fill_append, fill_map_some, fill_cons, Patch.stitchFrom, here,
        List.flatten_append, List.flatten_cons, stitched, List.append_assoc]
      rfl
    · intro place
      have reaches (further : Template) :
          (fill (front.map some ++ none :: further) old).flatten.length =
            front.flatten.length + old.length + (further.fill old).flatten.length := by
        rw [fill_append, fill_map_some, fill_cons]
        simp [Nat.add_assoc]
      constructor
      · rintro ⟨q, member, rfl⟩
        rcases List.mem_cons.mp member with rfl | member
        · exact ⟨front.map some, template, rfl, by rw [fill_map_some, start]⟩
        · obtain ⟨further, rest, rfl, place⟩ := (holes q.start).mp ⟨q, member, rfl⟩
          refine ⟨front.map some ++ none :: further, rest, by simp, ?_⟩
          rw [reaches]
          omega
      · rintro ⟨before, rest, split, rfl⟩
        rcases hole_cases split with rfl | ⟨further, rfl, rfl⟩
        · exact ⟨p, List.mem_cons_self, by rw [fill_map_some, start]⟩
        · obtain ⟨q, member, place⟩ := (holes _).mpr ⟨further, rest, rfl, rfl⟩
          refine ⟨q, List.mem_cons_of_mem _ member, ?_⟩
          rw [reaches]
          omega

end Template

end Emend
