import Emend.Proofs.Pieces

/-!
# Renaming an export once

The edges of an export are edges of words, so an export is seen in the pieces of a
text: the keyword, what opens the export, and the name are pieces, with white space
between them. Renaming replaces some of these names. Not all of them, since a name
may be the keyword of another export: of every export the name or the keyword is
replaced.

In the resulting text there is no export of the old name. Its keyword and its name
would not be new words, so they would be pieces of the text before. What opens it
and the keyword of its alias would not be new words either, because of what stands
before a name that is replaced. So it would have been an export before, and then its
name or its keyword would have been replaced.
-/

namespace Emend

open Text

/-- The word of some ASCII letters, digits and low lines. -/
def Text.Word.ofName (t : Text) (filled : t ≠ []) (named : t.AllName) (plain : '$' ∉ t) : Word where
  text := t
  filled := filled
  letters := by
    intro c member
    rw [(isNameChar_kinds (named c member)).2, bne_iff_ne]
    rintro rfl
    exact plain member

def exportWord : Word := .ofName "export".toList (by decide) (by decide) (by decide)

def defaultWord : Word := .ofName "default".toList (by decide) (by decide) (by decide)

def asWord : Word := .ofName "as".toList (by decide) (by decide) (by decide)

/-- There is an edge after a word unless another word character follows. -/
theorem Text.Word.edgeBetween_iff (w : Word) (front rest : Text) :
    (front ++ w.text).EdgeBetween rest ↔ rest.head?.any isWord = false := by
  have letter := w.letters _ (List.getLast_mem w.filled)
  rw [EdgeBetween, List.getLast?_append, List.getLast?_eq_some_getLast w.filled, Option.some_or,
    Option.any_some, letter, Bool.eq_false_iff, ne_comm]

/-- A piece of white space. -/
def BlankPiece (p : Text) : Prop := ∃ c, isBlank c = true ∧ p = [c]

section Blank

variable {u v : Text}

theorem blankPiece_of_mem_singles (blank : u.AllBlank) : ∀ p ∈ singles u, BlankPiece p := by
  intro p member
  obtain ⟨c, inside, rfl⟩ := List.mem_map.mp member
  exact ⟨c, blank c inside, rfl⟩

theorem Text.Word.not_blankPiece (w : Word) : ¬ BlankPiece w.text := by
  rintro ⟨c, blank, single⟩
  have letter := w.letters c (by rw [single]; exact List.mem_cons_self)
  rw [not_isWord_of_isBlank blank] at letter
  cases letter

theorem not_blankPiece_brace : ¬ BlankPiece ['\x7b'] := by
  rintro ⟨c, blank, single⟩
  obtain ⟨rfl, -⟩ := List.cons.inj single
  exact solid_marks _ (by decide) blank

/-- The last piece that is not white space is in one place only. -/
theorem last_unique {front other : List Text} {p q : Text} (first : u.AllBlank)
    (second : v.AllBlank) (stops : ¬ BlankPiece p) (ends : ¬ BlankPiece q)
    (same : front ++ p :: singles u = other ++ q :: singles v) : front = other ∧ p = q := by
  have reversed := congrArg List.reverse same
  simp only [List.reverse_append, List.reverse_cons, List.append_assoc, List.singleton_append]
    at reversed
  have firstBlank : ∀ p ∈ (singles u).reverse, BlankPiece p := fun p member =>
    blankPiece_of_mem_singles first p (List.mem_reverse.mp member)
  have secondBlank : ∀ p ∈ (singles v).reverse, BlankPiece p := fun p member =>
    blankPiece_of_mem_singles second p (List.mem_reverse.mp member)
  obtain ⟨-, pieces, rest⟩ := stretch_unique firstBlank secondBlank stops ends reversed
  exact ⟨List.reverse_inj.mp rest, pieces⟩

theorem head_blank (blank : u.AllBlank) (filled : u ≠ []) (t : Text) :
    (u ++ t).head?.any isWord = false := by
  obtain ⟨c, u, rfl⟩ := List.exists_cons_of_ne_nil filled
  exact not_isWord_of_isBlank (blank c List.mem_cons_self)

theorem head_blank_mark (blank : u.AllBlank) {c : Char} (mark : isWord c = false) (t : Text) :
    (u ++ c :: t).head?.any isWord = false := by
  cases u with
  | nil => exact mark
  | cons d u => exact head_blank blank (List.cons_ne_nil _ _) _

end Blank

/-- What stands before an exported name: a brace opens the export, or a keyword. -/
structure ExportHead where
  gap : Text
  opener : Text
  inner : Text
  gap_blank : gap.AllBlank
  inner_blank : inner.AllBlank
  opens : opener = ['\x7b'] ∨ opener = defaultWord.text ∧ gap ≠ [] ∧ inner ≠ []

namespace ExportHead

/-- The head as it is written. -/
def text (head : ExportHead) : Text :=
  exportWord.text ++ (head.gap ++ (head.opener ++ head.inner))

/-- The pieces of the head behind the keyword. -/
def tail (head : ExportHead) : List Text := singles head.gap ++ head.opener :: singles head.inner

/-- The pieces of the head. -/
def pieces (head : ExportHead) : List Text := exportWord.text :: head.tail

theorem flatten_pieces (head : ExportHead) : head.pieces.flatten = head.text := by
  rw [pieces, tail, text, List.flatten_cons, List.flatten_append, List.flatten_cons,
    flatten_singles, flatten_singles]

theorem isWord_brace : isWord '\x7b' = false := Bool.eq_false_iff.mpr (isWord_marks _ (by decide))

theorem not_blankPiece_opener (head : ExportHead) : ¬ BlankPiece head.opener := by
  rcases head.opens with brace | ⟨keyword, -, -⟩
  · rw [brace]
    exact not_blankPiece_brace
  · rw [keyword]
    exact defaultWord.not_blankPiece

/-- There is an edge before a head unless a word character is there. -/
theorem edgeBetween_iff (head : ExportHead) (front rest : Text) :
    front.EdgeBetween (head.text ++ rest) ↔ front.getLast?.any isWord = false := by
  have letter : (head.text ++ rest).head?.any isWord = true := exportWord.letters 'e' (by decide)
  rw [EdgeBetween, letter, Bool.eq_false_iff]

/-- The pieces of a head and a name. -/
theorem pieces_append (head : ExportHead) (name : Word) {rest : Text}
    (ended : rest.head?.any isWord = false) :
    (head.text ++ (name.text ++ rest)).pieces = head.pieces ++ name.text :: rest.pieces := by
  obtain ⟨gap, opener, inner, gap_blank, inner_blank, opens⟩ := head
  have split : text ⟨gap, opener, inner, gap_blank, inner_blank, opens⟩ ++ (name.text ++ rest) =
      exportWord.text ++ (gap ++ (opener ++ (inner ++ (name.text ++ rest)))) := by simp [text]
  rw [split]
  rcases opens with rfl | ⟨rfl, parted, named⟩
  · rw [List.singleton_append, pieces_word exportWord (head_blank_mark gap_blank isWord_brace _),
      pieces_blank gap_blank, pieces_mark isWord_brace, pieces_blank inner_blank,
      pieces_word name ended]
    simp [pieces, tail]
  · rw [pieces_word exportWord (head_blank gap_blank parted _), pieces_blank gap_blank,
      pieces_word defaultWord (head_blank inner_blank named _), pieces_blank inner_blank,
      pieces_word name ended]
    simp [pieces, tail]

/-- The head before a name is in one place only. -/
theorem unique {head other : ExportHead} (name : Word) {rest rest' : List Text}
    (same : head.pieces ++ name.text :: rest = other.pieces ++ name.text :: rest') :
    head.pieces = other.pieces := by
  have behind : singles head.gap ++ head.opener :: (singles head.inner ++ name.text :: rest) =
      singles other.gap ++ other.opener :: (singles other.inner ++ name.text :: rest') := by
    simpa [pieces, tail] using same
  obtain ⟨gap, opener, further⟩ := stretch_unique (blankPiece_of_mem_singles head.gap_blank)
    (blankPiece_of_mem_singles other.gap_blank) head.not_blankPiece_opener
    other.not_blankPiece_opener behind
  obtain ⟨inner, -, -⟩ := stretch_unique (blankPiece_of_mem_singles head.inner_blank)
    (blankPiece_of_mem_singles other.inner_blank) name.not_blankPiece name.not_blankPiece further
  rw [pieces, pieces, tail, tail, gap, opener, inner]

/-- The keyword is only at the start of a head. -/
theorem keyword_not_mem_tail (head : ExportHead) : exportWord.text ∉ head.tail := by
  have blank {u : Text} (white : u.AllBlank) : exportWord.text ∉ singles u := fun member =>
    exportWord.not_blankPiece (blankPiece_of_mem_singles white _ member)
  have other : exportWord.text ≠ head.opener := by
    rcases head.opens with brace | ⟨keyword, -, -⟩
    · rw [brace]
      decide
    · rw [keyword]
      decide
  simp [tail, blank head.gap_blank, blank head.inner_blank, other]

end ExportHead

/-- The pieces that close the braces of an export, at the start of other pieces. -/
inductive ClosingPieces : List Text → Prop
  | plain {gap : Text} {rest : List Text} (blank : gap.AllBlank) :
      ClosingPieces (singles gap ++ ['\x7d'] :: rest)
  | aliased {gap : Text} {rest : List Text} (blank : gap.AllBlank) (a : Alias) :
      ClosingPieces (singles gap ++ asWord.text :: (singles a.before ++ a.word ::
        (singles a.after ++ ['\x7d'] :: rest)))

theorem isWord_closer : isWord '\x7d' = false := Bool.eq_false_iff.mpr (isWord_marks _ (by decide))

theorem Closing.pieces {u : Text} (closed : Closing u) (t : Text) :
    ClosingPieces (u ++ t).pieces := by
  cases closed with
  | plain blank =>
    rw [List.append_assoc, pieces_blank blank, List.singleton_append, pieces_mark isWord_closer]
    exact .plain blank
  | @aliased gap blank a =>
    have split : gap ++ (a.text ++ ['\x7d']) ++ t =
        gap ++ (asWord.text ++ (a.before ++ (a.word ++ (a.after ++ '\x7d' :: t)))) := by
      simp [Alias.text, asWord, Word.ofName]
    rw [split, pieces_blank blank, pieces_word asWord (head_blank a.before_blank a.parted _),
      pieces_blank a.before_blank, pieces_word ⟨a.word, a.named, a.word_word⟩
        (head_blank_mark a.after_blank isWord_closer t), pieces_blank a.after_blank,
      pieces_mark isWord_closer]
    exact .aliased blank a

theorem ClosingPieces.closing {list : List Text} (closed : ClosingPieces list) :
    ∃ u rest, Closing u ∧ list.flatten = u ++ rest := by
  cases closed with
  | @plain gap rest blank =>
    exact ⟨_, rest.flatten, .plain blank, by simp [flatten_singles]⟩
  | @aliased gap rest blank a =>
    refine ⟨_, rest.flatten, .aliased blank a, ?_⟩
    simp [flatten_singles, Alias.text, asWord, Word.ofName]

/-- Pieces of a text export a name behind `front`. -/
structure ExportIn (list : List Text) (name : Word) (front : List Text) (head : ExportHead)
    (rest : List Text) : Prop where
  whole : list = front ++ (head.pieces ++ name.text :: rest)
  closed : head.opener = ['\x7b'] → ClosingPieces rest

/-- The pieces up to the exported name. -/
theorem ExportIn.named {list front rest : List Text} {name : Word} {head : ExportHead}
    (inside : ExportIn list name front head rest) :
    list = (front ++ head.pieces) ++ name.text :: rest := by
  rw [inside.whole, List.append_assoc]

/-- An export is seen in the pieces of the text. -/
theorem Exports.exportIn {text front head rest : Text} {name : Word} {group : Nat}
    (exports : Exports text name.text front head rest group) :
    ∃ h : ExportHead, head = h.text ∧ ExportIn text.pieces name front.pieces h rest.pieces := by
  obtain ⟨rfl, starts, ends, form⟩ := exports
  rw [← List.append_assoc, name.edgeBetween_iff] at ends
  obtain ⟨h, rfl, closed⟩ : ∃ h : ExportHead, head = h.text ∧
      (h.opener = ['\x7b'] → ClosingPieces rest.pieces) := by
    cases form with
    | braced opened closed =>
      cases opened with
      | @mk gap inner gap_blank inner_blank =>
        exact ⟨⟨gap, ['\x7b'], inner, gap_blank, inner_blank, .inl rfl⟩, rfl,
          fun _ => closed.pieces _⟩
    | default opened =>
      cases opened with
      | @mk gap inner parted named gap_blank inner_blank =>
        have keyword : defaultWord.text ≠ ['\x7b'] := by decide
        exact ⟨⟨gap, defaultWord.text, inner, gap_blank, inner_blank,
          .inr ⟨rfl, parted, named⟩⟩, rfl, fun brace => absurd brace keyword⟩
  rw [h.edgeBetween_iff] at starts
  refine ⟨h, rfl, ?_, closed⟩
  rw [Text.pieces_append (.inl starts), h.pieces_append name ends]

/-- An export in the pieces of a text is one of the text. -/
theorem ExportIn.exports {text : Text} {name : Word} {front rest : List Text} {head : ExportHead}
    (exports : ExportIn text.pieces name front head rest) :
    ∃ group, Exports text name.text front.flatten head.text rest.flatten group := by
  have named := exports.named
  obtain ⟨whole, closed⟩ := exports
  have split : text = front.flatten ++ (head.text ++ (name.text ++ rest.flatten)) := by
    rw [← Text.flatten_pieces text, whole, ← head.flatten_pieces]
    simp
  have starts := (head.edgeBetween_iff front.flatten (name.text ++ rest.flatten)).mpr
    (not_isWord_beside whole exportWord.letters).1
  have ends := (name.edgeBetween_iff (front.flatten ++ head.text) rest.flatten).mpr
    (not_isWord_beside named name.letters).2
  rw [List.append_assoc] at ends
  obtain ⟨gap, opener, inner, gap_blank, inner_blank, opens⟩ := head
  rcases opens with rfl | ⟨rfl, parted, filled⟩
  · obtain ⟨u, tail, closing, follows⟩ := (closed rfl).closing
    refine ⟨1, split, starts, ends, ?_⟩
    rw [follows]
    exact .braced (.mk gap_blank inner_blank) closing
  · exact ⟨2, split, starts, ends, .default (.mk parted filled gap_blank inner_blank)⟩

/-- An export that starts within another one of the same name starts with it, or at its name. -/
theorem ExportIn.overlap {text : Text} {name : Word} {front other rest rest' : List Text}
    {head head' : ExportHead} (first : ExportIn text.pieces name front head rest)
    (second : ExportIn text.pieces name other head' rest')
    (after : front.flatten.length ≤ other.flatten.length)
    (within : other.flatten.length < (front ++ (head.pieces ++ [name.text])).flatten.length) :
    other = front ++ head.pieces ∨ other = front ∧ head'.pieces = head.pieces := by
  have proper := nil_not_mem_pieces text
  have same := first.whole.symm.trans second.whole
  rw [first.whole] at proper
  obtain ⟨z, rfl, follows⟩ := prefix_of_length_le proper same after
  have split : z ++ (head'.pieces ++ name.text :: rest') =
      (head.pieces ++ [name.text]) ++ rest := by
    rw [← follows]
    simp
  have shorter : z.flatten.length < (head.pieces ++ [name.text]).flatten.length := by
    rw [List.flatten_append, List.flatten_append, List.length_append, List.length_append] at within
    omega
  have filled : [] ∉ z ++ (head'.pieces ++ name.text :: rest') := by
    intro member
    rw [← follows] at member
    exact proper (List.mem_append_right _ member)
  obtain ⟨w, ends, -⟩ := prefix_of_length_le filled split (Nat.le_of_lt shorter)
  -- The keyword of the second export is one of the pieces of the first one.
  have more : w ≠ [] := by
    rintro rfl
    rw [ends, List.append_nil] at shorter
    exact Nat.lt_irrefl _ shorter
  obtain ⟨k, w, rfl⟩ := List.exists_cons_of_ne_nil more
  obtain rfl : k = exportWord.text := by
    rw [ends, List.append_assoc, List.append_right_inj] at split
    exact (List.cons.inj split).1.symm
  rcases List.eq_nil_or_concat w with rfl | ⟨w, p, rfl⟩
  · obtain ⟨heads, -⟩ := List.append_inj' ends rfl
    exact .inl (by rw [heads])
  · rw [List.concat_eq_append, ← List.cons_append, ← List.append_assoc] at ends
    obtain ⟨heads, -⟩ := List.append_inj' ends rfl
    cases z with
    | nil =>
      refine .inr ⟨List.append_nil _, ?_⟩
      exact ExportHead.unique name follows.symm
    | cons q z =>
      have further : head.tail = z ++ exportWord.text :: w := (List.cons.inj heads).2
      refine absurd ?_ head.keyword_not_mem_tail
      rw [further]
      exact List.mem_append_right _ List.mem_cons_self

/-- How the pieces of a text become those of the text in which an export has been renamed: a
template has holes at names of exports, and of every export the keyword or the name is a hole. -/
structure Renaming (text result : Text) (old new : Word) (template : Template) : Prop where
  before : template.fill old.text = text.pieces
  after : template.fill new.text = result.pieces
  exported : ∀ earlier later : Template, template = earlier ++ none :: later →
    ∃ (front : List Text) (head : ExportHead), earlier.fill old.text = front ++ head.pieces
  covered : ∀ front head rest, ExportIn text.pieces old front head rest →
    ∃ earlier later : Template, template = earlier ++ none :: later ∧
      (earlier.fill old.text = front ∨ earlier.fill old.text = front ++ head.pieces)

section Kept

variable {new : Word}

theorem eq_some_of_getD {piece : Option Text} {p : Text} (same : piece.getD new.text = p)
    (other : p ≠ new.text) : piece = some p := by
  cases piece with
  | none => exact absurd same.symm other
  | some q => rw [← same, Option.getD_some]

/-- No white space comes of a hole. -/
theorem Template.fill_eq_singles {template : Template} {gap p : Text} {rest : List Text}
    (blank : gap.AllBlank) (same : template.fill new.text = singles gap ++ p :: rest) :
    ∃ (piece : Option Text) (after : Template),
      template = (singles gap).map some ++ piece :: after ∧ piece.getD new.text = p ∧
        after.fill new.text = rest := by
  induction gap generalizing template with
  | nil =>
    obtain ⟨piece, after, rfl, first, later⟩ := List.map_eq_cons_iff.mp same
    exact ⟨piece, after, rfl, first, later⟩
  | cons c gap inductionHypothesis =>
    obtain ⟨piece, after, rfl, first, later⟩ := List.map_eq_cons_iff.mp same
    have solid : [c] ≠ new.text := by
      intro single
      exact new.not_blankPiece ⟨c, blank c List.mem_cons_self, single.symm⟩
    obtain rfl := eq_some_of_getD first solid
    obtain ⟨piece, after, rfl, found, further⟩ :=
      inductionHypothesis (fun d member => blank d (List.mem_cons_of_mem _ member)) later
    exact ⟨piece, after, rfl, found, further⟩

end Kept

namespace Renaming

variable {text result : Text} {old new : Word} {template : Template}

/-- The last piece before a hole that is not white space opens an export. -/
theorem before_hole (renamed : Renaming text result old new template) {earlier later : Template}
    {front : List Text} {p u : Text} (hole : template = earlier ++ none :: later)
    (blank : u.AllBlank) (solid : ¬ BlankPiece p)
    (filled : earlier.fill old.text = front ++ p :: singles u) :
    ∃ (head : ExportHead) (before : List Text), p = head.opener ∧
      front = before ++ exportWord.text :: singles head.gap := by
  obtain ⟨before, head, named⟩ := renamed.exported earlier later hole
  have split : front ++ p :: singles u =
      (before ++ exportWord.text :: singles head.gap) ++ head.opener :: singles head.inner := by
    rw [← filled, named]
    simp [ExportHead.pieces, ExportHead.tail]
  obtain ⟨same, opener⟩ := last_unique blank head.inner_blank solid head.not_blankPiece_opener split
  exact ⟨head, before, opener, same⟩

/-- What opens an export is no new word: the keyword stands before it. -/
theorem opener_kept (renamed : Renaming text result old new template) {front after : Template}
    {gap p : Text} {piece : Option Text} (blank : gap.AllBlank)
    (split : template = front ++ some exportWord.text :: ((singles gap).map some ++ piece :: after))
    (found : piece.getD new.text = p) : piece = some p := by
  cases piece with
  | some q => exact congrArg some found
  | none =>
    have hole : template = (front ++ some exportWord.text :: (singles gap).map some) ++
        none :: after := by simp [split]
    have filled : Template.fill (front ++ some exportWord.text :: (singles gap).map some) old.text =
        front.fill old.text ++ exportWord.text :: singles gap := by
      rw [Template.fill_append, ← List.map_cons, Template.fill_map_some]
    obtain ⟨head, -, opener, -⟩ :=
      renamed.before_hole hole blank exportWord.not_blankPiece filled
    refine absurd ?_ head.keyword_not_mem_tail
    rw [opener, ExportHead.tail]
    exact List.mem_append_right _ List.mem_cons_self

/-- The keyword of an alias is no new word: a name stands before it, and before that a brace. -/
theorem alias_kept (renamed : Renaming text result old new template) {front after : Template}
    {inner gap p : Text} {piece : Option Text} (white : inner.AllBlank) (blank : gap.AllBlank)
    (split : template = front ++ some ['\x7b'] :: ((singles inner).map some ++
      some old.text :: ((singles gap).map some ++ piece :: after)))
    (found : piece.getD new.text = p) : piece = some p := by
  cases piece with
  | some q => exact congrArg some found
  | none =>
    have hole : template = (front ++ (['\x7b'] :: (singles inner ++ old.text :: singles gap)).map
        some) ++ none :: after := by simp [split]
    have filled : Template.fill (front ++ (['\x7b'] :: (singles inner ++ old.text ::
        singles gap)).map some) old.text =
          (front.fill old.text ++ ['\x7b'] :: singles inner) ++ old.text :: singles gap := by
      rw [Template.fill_append, Template.fill_map_some]
      simp
    obtain ⟨head, before, -, same⟩ := renamed.before_hole hole blank old.not_blankPiece filled
    have brace := (last_unique white head.gap_blank not_blankPiece_brace exportWord.not_blankPiece
      same).2
    exact absurd brace (by decide)

/-- The braces of an export that are closed now were closed before. -/
theorem closed_before (renamed : Renaming text result old new template) {front after : Template}
    {inner : Text} (white : inner.AllBlank)
    (split : template = front ++ some ['\x7b'] :: ((singles inner).map some ++
      some old.text :: after))
    (closed : ClosingPieces (after.fill new.text)) : ClosingPieces (after.fill old.text) := by
  have mark : (['\x7d'] : Text) ≠ new.text := by
    intro same
    have letter := new.letters '\x7d' (by rw [← same]; exact List.mem_cons_self)
    exact isWord_marks _ (by decide) letter
  generalize shape : after.fill new.text = list at closed
  cases closed with
  | plain blank =>
    obtain ⟨piece, rest, rfl, found, -⟩ := Template.fill_eq_singles blank shape
    obtain rfl := eq_some_of_getD found mark
    rw [Template.fill_append, Template.fill_map_some]
    exact .plain blank
  | aliased blank a =>
    obtain ⟨piece, rest, rfl, found, further⟩ := Template.fill_eq_singles blank shape
    obtain rfl := renamed.alias_kept white blank split found
    obtain ⟨word, rest, rfl, named, further⟩ := Template.fill_eq_singles a.before_blank further
    obtain ⟨piece, rest, rfl, found, -⟩ := Template.fill_eq_singles a.after_blank further
    obtain rfl := eq_some_of_getD found mark
    -- The alias may be a new word; it was a word before as well.
    obtain ⟨w, same⟩ : ∃ w : Word, w.text = word.getD old.text := by
      cases word with
      | none => exact ⟨old, rfl⟩
      | some p =>
        have unchanged : p = a.word := named
        exact ⟨⟨a.word, a.named, a.word_word⟩, unchanged.symm⟩
    simp only [Template.fill_append, Template.fill_map_some, Template.fill_cons, Option.getD_some]
    rw [← same]
    exact .aliased blank { a with word := w.text, named := w.filled, word_word := w.letters }

/-- An export of the old name in the result was one in the text before, with all its pieces but
those that close it. -/
theorem exportIn_before (renamed : Renaming text result old new template) (different : old ≠ new)
    (ordinary : new.text ≠ exportWord.text) {front rest : List Text} {head : ExportHead}
    (inside : ExportIn result.pieces old front head rest) :
    ∃ earlier later : Template,
      template = earlier ++ (head.pieces.map some ++ some old.text :: later) ∧
        ExportIn text.pieces old (earlier.fill old.text) head (later.fill old.text) := by
  obtain ⟨whole, closed⟩ := inside
  rw [← renamed.after] at whole
  obtain ⟨earlier, others, split, -, named⟩ := List.map_eq_append_iff.mp whole
  obtain ⟨keyword, others, rfl, found, further⟩ := List.map_eq_cons_iff.mp named
  obtain rfl := eq_some_of_getD found ordinary.symm
  have behind : Template.fill others new.text =
      singles head.gap ++ head.opener :: (singles head.inner ++ old.text :: rest) := by
    rw [Template.fill, further]
    simp [ExportHead.tail]
  obtain ⟨opener, others, rfl, opened, inner⟩ := Template.fill_eq_singles head.gap_blank behind
  obtain rfl := renamed.opener_kept head.gap_blank split opened
  obtain ⟨name, later, rfl, found, rfl⟩ := Template.fill_eq_singles head.inner_blank inner
  obtain rfl := eq_some_of_getD found (fun same => different (Word.ext same))
  have shape : template = earlier ++ (head.pieces.map some ++ some old.text :: later) := by
    rw [split]
    simp [ExportHead.pieces, ExportHead.tail]
  refine ⟨earlier, later, shape, ?_, ?_⟩
  · rw [← renamed.before, shape]
    simp only [Template.fill_append, Template.fill_map_some, Template.fill_cons, Option.getD_some]
  · intro brace
    rw [brace] at split
    have deeper : template = (earlier ++ some exportWord.text :: (singles head.gap).map some) ++
        some ['\x7b'] :: ((singles head.inner).map some ++ some old.text :: later) := by
      rw [split]
      simp
    exact renamed.closed_before head.inner_blank deeper (closed brace)

/-- The result does not export the old name. -/
theorem not_exportIn (renamed : Renaming text result old new template) (different : old ≠ new)
    (ordinary : new.text ≠ exportWord.text) (front : List Text) (head : ExportHead)
    (rest : List Text) : ¬ ExportIn result.pieces old front head rest := by
  intro inside
  obtain ⟨earlier, later, shape, before⟩ := renamed.exportIn_before different ordinary inside
  obtain ⟨first, second, hole, place⟩ := renamed.covered _ _ _ before
  have width (t : Template) : (t.fill old.text).length = t.length := List.length_map _
  rw [shape] at hole
  rcases place with keyword | name
  · have level : earlier.length = first.length := by rw [← width, ← width, keyword]
    obtain ⟨-, same⟩ := List.append_inj hole level
    cases (List.cons.inj same).1
  · have level : (earlier ++ head.pieces.map some).length = first.length := by
      rw [List.length_append, ← width, ← width first, name, List.length_append, List.length_map]
    rw [← List.append_assoc] at hole
    obtain ⟨-, same⟩ := List.append_inj hole level
    cases (List.cons.inj same).1

end Renaming

namespace Suggestor

section Patches

variable {source : Source} {old new : Word}

/-- Every patch is over the name of an export. -/
theorem renameExport_over_name {p : Patch}
    (proposed : p ∈ (renameExport old.text new.text).proposed source) :
    p.replacement = new.text ∧ ∃ front head rest, ExportIn source.text.pieces old front head rest ∧
      p.start = (front ++ head.pieces).flatten.length ∧ p.stop = p.start + old.text.length := by
  have edit := List.mem_map_of_mem (f := Patch.edit) proposed
  rw [(renameExport_edits source old.text new.text).1] at edit
  obtain ⟨m, member, same⟩ := List.mem_map.mp edit
  obtain ⟨front, head, rest, group, exports, -, -, range⟩ := exported_match member
  rw [range] at same
  obtain ⟨h, rfl, inside⟩ := exports.exportIn
  have start : (front ++ h.text).length = p.start := congrArg (fun data => data.1) same
  have stop : (front ++ (h.text ++ old.text)).length = p.stop :=
    congrArg (fun data => data.2.1) same
  have replacement : new.text = p.replacement := congrArg (fun data => data.2.2) same
  refine ⟨replacement.symm, front.pieces, h, rest.pieces, inside, ?_, ?_⟩
  · rw [← start, List.flatten_append, Text.flatten_pieces, h.flatten_pieces]
  · rw [← start, ← stop, ← List.append_assoc, List.length_append]

/-- Of every export the keyword or the name is where a patch starts: where there is a way to match,
a match has been found that reaches beyond, and within it no other export starts but at its name. -/
theorem renameExport_covers (new : Word) {front rest : List Text} {head : ExportHead}
    (inside : ExportIn source.text.pieces old front head rest) :
    ∃ p ∈ (renameExport old.text new.text).proposed source,
      p.start = front.flatten.length ∨ p.start = (front ++ head.pieces).flatten.length := by
  obtain ⟨group, exports⟩ := inside.exports
  have reached : front.flatten.length ≤ source.text.length := by
    rw [exports.whole, List.length_append]
    omega
  have way := (Exports.mem_ways_iff reached).mpr ⟨_, _, _, _, rfl, exports, rfl⟩
  have moved : (Exports.spot source.text old.text front.flatten head.text group).offset ≠
      front.flatten.length := by
    have long := exports.form.length_pos
    rw [Exports.offset_spot, List.length_append, List.length_append]
    omega
  obtain ⟨m, member, before, beyond⟩ :=
    (Pattern.findAll_scans _ source.text).covers (Nat.zero_le _) reached way moved
  obtain ⟨outer, opening, after, _, found, start, stop, range⟩ := exported_match member
  obtain ⟨h, rfl, other⟩ := found.exportIn
  have listed : ((outer ++ h.text).length, (outer ++ (h.text ++ old.text)).length, new.text) ∈
      ((renameExport old.text new.text).proposed source).map Patch.edit := by
    rw [(renameExport_edits source old.text new.text).1]
    exact List.mem_map.mpr ⟨m, member, by rw [range]⟩
  obtain ⟨p, proposed, same⟩ := List.mem_map.mp listed
  have place : p.start = (outer ++ h.text).length := congrArg (fun data => data.1) same
  refine ⟨p, proposed, ?_⟩
  have name : (outer.pieces ++ h.pieces).flatten.length = (outer ++ h.text).length := by
    rw [List.flatten_append, Text.flatten_pieces, h.flatten_pieces]
  have after : outer.pieces.flatten.length ≤ front.flatten.length := by
    rw [Text.flatten_pieces, ← start]
    exact before
  have within : front.flatten.length <
      (outer.pieces ++ (h.pieces ++ [old.text])).flatten.length := by
    have width : (outer.pieces ++ (h.pieces ++ [old.text])).flatten =
        outer ++ (h.text ++ old.text) := by
      simp [Text.flatten_pieces, h.flatten_pieces]
    rw [width, ← stop]
    exact beyond
  rcases other.overlap inside after within with rfl | ⟨rfl, heads⟩
  · exact .inl (by rw [place, name])
  · exact .inr (by rw [place, heads, name])

end Patches

/-- Renaming an export works on the pieces of the text. -/
theorem exists_renaming (source : Source) (old new : Word) :
    ∃ result template,
      Patch.apply source.text ((renameExport old.text new.text).proposed source) = .ok result ∧
        Renaming source.text result old new template := by
  have compatible : Patch.Compatible source.text
      ((renameExport old.text new.text).proposed source) := renameExport_compatible _ _
  have native : ∀ p ∈ (renameExport old.text new.text).proposed source,
      p.source.text = source.text := by
    intro p proposed
    rw [of_mem_proposed proposed]
  have proper := nil_not_mem_pieces source.text
  have whole : source.text.drop 0 = source.text.pieces.flatten :=
    (Text.flatten_pieces source.text).symm
  obtain ⟨template, filled, stitched, holes⟩ := Template.exists_template proper whole
    compatible.disjoint (by
      intro p proposed
      obtain ⟨replacement, front, head, rest, inside, start, stop⟩ :=
        renameExport_over_name proposed
      exact ⟨replacement, front ++ head.pieces, rest, inside.named, by rw [start, Nat.zero_add],
        stop⟩)
  -- Pieces of the text up to a hole are given by the offset of the hole.
  have upTo {earlier later : Template} {front rest : List Text}
      (hole : template = earlier ++ none :: later) (whole : source.text.pieces = front ++ rest)
      (level : front.flatten.length = (earlier.fill old.text).flatten.length) :
      earlier.fill old.text = front := by
    rw [hole, Template.fill_append] at filled
    rw [whole] at proper
    exact (Text.eq_of_length_eq proper (whole.symm.trans filled.symm) level).1.symm
  refine ⟨_, template, compatible.apply_eq native, filled, ?_, ?_, ?_⟩
  · have pieced : pieces (template.fill old.text).flatten = template.fill old.text := by
      rw [filled, Text.flatten_pieces]
    rw [Patch.stitch, ← stitched, Template.pieces_fill pieced]
  · intro earlier later hole
    obtain ⟨p, proposed, place⟩ := (holes _).mpr ⟨earlier, later, hole, rfl⟩
    obtain ⟨-, front, head, rest, inside, start, -⟩ := renameExport_over_name proposed
    refine ⟨front, head, upTo hole inside.named ?_⟩
    rw [← start, place, Nat.zero_add]
  · intro front head rest inside
    obtain ⟨p, proposed, place⟩ := renameExport_covers new inside
    obtain ⟨earlier, later, hole, start⟩ := (holes _).mp ⟨p, proposed, rfl⟩
    rw [Nat.zero_add] at start
    refine ⟨earlier, later, hole, ?_⟩
    rcases place with keyword | name
    · exact .inl (upTo hole inside.whole (keyword.symm.trans start))
    · exact .inr (upTo hole inside.named (name.symm.trans start))

/-- Renaming an export settles in one step. Whatever the text is, the patches can be applied; the
result does not export the old name any more, and nothing is proposed for it. The names are any two
different words, of ASCII letters, digits and low lines or of other scripts, and the new one is not
the keyword. -/
theorem export_renaming_settles (source : Source) (old new : Word) (different : old ≠ new)
    (ordinary : new.text ≠ "export".toList) :
    (((renameExport old.text new.text).proposals source).harvest {}).fault = none ∧
      ∃ result,
        Patch.apply source.text ((renameExport old.text new.text).proposed source) = .ok result ∧
        (∀ front head rest group, ¬ Exports result old.text front head rest group) ∧
        ∀ url, (renameExport old.text new.text).proposals ⟨result, url⟩ = .done := by
  obtain ⟨result, template, applied, renamed⟩ := exists_renaming source old new
  have nowhere : ∀ front head rest group, ¬ Exports result old.text front head rest group := by
    intro front head rest group exports
    obtain ⟨h, -, inside⟩ := exports.exportIn
    exact renamed.not_exportIn different ordinary _ _ _ inside
  refine ⟨(renameExport_edits source old.text new.text).2, result, applied, nowhere, ?_⟩
  intro url
  have nothing := findAll_exported_eq_nil nowhere
  show Proposals.ofList (matchPatches _ _ _ ((Expression.exported old.text).findAll result)) = _
  rw [nothing]
  rfl

/-- A text in which the exported name is the keyword of another export. -/
def chainedExports : Source := ⟨"export default export default export".toList, none⟩

/-- Of two exports that share a word one is renamed, and the other is none any more. -/
theorem chained_exports_settle :
    exportWord ≠ .ofName ['b'] (by decide) (by decide) (by decide) ∧
      (['b'] : Text) ≠ "export".toList ∧
      ((renameExport "export".toList ['b']).proposed chainedExports).map Patch.edit =
        [(15, 21, ['b'])] ∧
      ∃ result,
        Patch.apply chainedExports.text
          ((renameExport "export".toList ['b']).proposed chainedExports) = .ok result ∧
        ∀ url, (renameExport "export".toList ['b']).proposals ⟨result, url⟩ = .done := by
  have different : exportWord ≠ .ofName ['b'] (by decide) (by decide) (by decide) := by
    intro same
    exact absurd (congrArg Word.text same) (by decide)
  obtain ⟨-, result, applied, -, settled⟩ :=
    export_renaming_settles chainedExports exportWord _ different (by decide)
  refine ⟨different, by decide, ?_, result, applied, settled⟩
  rw [(renameExport_edits _ _ _).1]
  decide +kernel

end Suggestor

end Emend
