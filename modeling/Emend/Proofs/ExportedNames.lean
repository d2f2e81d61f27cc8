import Emend.Proofs.ScriptNames

/-!
# Renaming an export that stands alone

What is renamed in a text that holds a single export, for all names with and
without dollar signs. Without them it is the name itself and no other.

An export of another form cannot hide in such a text. The brace that opens is the
only one, and a default export needs a word that ends in the keyword and is
followed by a word that starts like `default`.
-/

namespace Emend

/-- The head of a default export is the keyword, white space, and a word that starts with `d`. -/
theorem DefaultHead.split {head : Text} (formed : DefaultHead head) (rest : Text) :
    ∃ (d : Char) (tail gap : Text), Text.isBlank d = true ∧ gap.AllBlank ∧
      head ++ rest = "export".toList ++ d :: (gap ++ 'd' :: tail) := by
  cases formed with
  | @mk gap inner parted named gap_blank inner_blank =>
    obtain ⟨d, gap, rfl⟩ := List.exists_cons_of_ne_nil parted
    refine ⟨d, "efault".toList ++ (inner ++ rest), gap, gap_blank d List.mem_cons_self, ?_, by simp⟩
    intro c member
    exact gap_blank c (List.mem_cons_of_mem _ member)

/-- A text in which nothing leads to a default export. -/
def DefaultFree (t : Text) : Prop :=
  ∀ front head rest, DefaultHead head → t ≠ front ++ (head ++ rest)

namespace DefaultFree

variable {w rest : Text} {c : Char}

/-- The keyword ends a word and white space follows, or it is in what follows the word. -/
theorem keyword_cases {front tail : Text} {d : Char} (solid : w.Solid)
    (blank : Text.isBlank c = true) (white : Text.isBlank d = true)
    (same : w ++ c :: rest = front ++ ("export".toList ++ d :: tail)) :
    w = front ++ "export".toList ∧ c = d ∧ rest = tail ∨
      ∃ later, front = w ++ c :: later ∧ rest = later ++ ("export".toList ++ d :: tail) := by
  have letters : Text.Solid "export".toList := solid_of_isNameChar (by decide)
  rcases List.append_eq_append_iff.mp same with ⟨z, longer, follows⟩ | ⟨z, longer, follows⟩
  · cases z with
    | nil =>
      obtain ⟨rfl, -⟩ := List.cons.inj follows
      exact absurd blank (letters _ (by decide))
    | cons y z =>
      obtain ⟨rfl, further⟩ := List.cons.inj follows
      exact .inr ⟨z, longer, further⟩
  · have inside : Text.Solid z := by
      intro x member
      exact solid x (by rw [longer]; exact List.mem_append_right _ member)
    obtain ⟨rfl, same, further⟩ := Text.stretch_unique inside letters (by simpa using blank)
      (by simpa using white) follows.symm
    exact .inl ⟨longer, same, further⟩

/-- A word before a text leads to a default export only if it ends in the keyword and the text
starts like a default export. -/
theorem word (solid : w.Solid) (blank : Text.isBlank c = true)
    (unlike : "export".toList <:+ w → ∀ gap tail : Text, gap.AllBlank → rest ≠ gap ++ 'd' :: tail)
    (free : DefaultFree rest) : DefaultFree (w ++ c :: rest) := by
  intro front head after formed same
  obtain ⟨d, tail, gap, white, indented, split⟩ := formed.split after
  rw [split] at same
  rcases keyword_cases solid blank white same with ⟨ends, -, begins⟩ | ⟨later, -, further⟩
  · exact unlike ⟨front, ends.symm⟩ gap tail indented begins
  · rw [← split] at further
    exact free later head after formed further

/-- A single word leads to no default export. -/
theorem last (solid : w.Solid) : DefaultFree w := by
  intro front head after formed same
  obtain ⟨d, tail, gap, white, -, split⟩ := formed.split after
  rw [split] at same
  refine absurd white (solid d ?_)
  rw [same]
  exact List.mem_append_right _ (List.mem_append_right _ List.mem_cons_self)

/-- White space before a word that does not start with `d` does not start like a default export. -/
theorem unlike_of_head {c : Char} (solid : ¬ Text.isBlank c = true) (other : c ≠ 'd')
    (rest : Text) : ∀ gap tail : Text, gap.AllBlank → c :: rest ≠ gap ++ 'd' :: tail := by
  intro gap tail blank same
  cases gap with
  | nil => exact other (List.cons.inj same).1
  | cons d gap =>
    obtain ⟨rfl, -⟩ := List.cons.inj same
    exact solid (blank c List.mem_cons_self)

end DefaultFree

/-- The start of an export in braces. -/
def braceOpen : Text := "export \x7b ".toList

/-- The start of a default export. -/
def defaultOpen : Text := "export default ".toList

theorem braceOpen_eq : braceOpen = "export ".toList ++ ['\x7b', ' '] := by decide

theorem defaultOpen_eq : defaultOpen = "export".toList ++ (' ' :: ("default".toList ++ [' '])) := by
  decide

theorem edgeBetween_keyword (rest : Text) : Text.EdgeBetween [] ("export ".toList ++ rest) := by
  have letter : Text.isWord 'e' = true := (isNameChar_kinds (by decide)).2
  have starts : "export ".toList = 'e' :: "xport ".toList := by decide
  rw [starts, Text.EdgeBetween, List.cons_append, List.head?_cons, Option.any_some, letter]
  exact Bool.false_ne_true

theorem keyword_at_start {front gap : Text}
    (same : "export ".toList = front ++ ("export".toList ++ gap)) : front = [] ∧ gap = [' '] := by
  cases front with
  | nil =>
    have split : "export ".toList = "export".toList ++ [' '] := by decide
    rw [split] at same
    exact ⟨rfl, (List.append_cancel_left same).symm⟩
  | cons c front =>
    have starts : "export ".toList = 'e' :: "xport ".toList := by decide
    rw [starts] at same
    have further : 'e' ∈ "xport ".toList := by
      rw [(List.cons.inj same).2]
      exact List.mem_append_right _ (List.mem_append_left _ (by decide))
    exact absurd further (by decide)

theorem defaultFree_default (x : ScriptName) :
    DefaultFree ("default".toList ++ ' ' :: (x.text ++ [';'])) := by
  apply DefaultFree.word (solid_of_isNameChar (by decide)) isBlank_space
  · intro ends
    exact absurd ends (by decide)
  · apply DefaultFree.last
    intro c member
    rcases List.mem_append.mp member with member | member
    · exact solid_of_isNameChar x.lettered c member
    · exact solid_marks c (by simp [List.mem_singleton.mp member])

theorem defaultFree_close : DefaultFree ['\x7d', ';'] :=
  DefaultFree.last fun c member => solid_marks c (List.mem_cons_of_mem _ member)

/-- No default export is in a text with an export in braces if none is in what follows the name
and that does not start like one. -/
theorem defaultFree_braced (x : ScriptName) {c : Char} {tail : Text}
    (solid : ¬ Text.isBlank c = true) (other : c ≠ 'd') (free : DefaultFree (c :: tail)) :
    DefaultFree (braceOpen ++ (x.text ++ ' ' :: (c :: tail))) := by
  have split : braceOpen ++ (x.text ++ ' ' :: (c :: tail)) = "export".toList ++ ' ' ::
      (['\x7b'] ++ ' ' :: (x.text ++ ' ' :: (c :: tail))) := by
    have spelled : braceOpen = "export".toList ++ [' ', '\x7b', ' '] := by decide
    rw [spelled]
    simp only [List.append_assoc, List.cons_append, List.nil_append]
  rw [split]
  apply DefaultFree.word (solid_of_isNameChar (by decide)) isBlank_space
  · intro _
    exact DefaultFree.unlike_of_head (solid_marks _ (by decide)) (by decide) _
  · have brace : Text.Solid ['\x7b'] :=
      fun c member => solid_marks c (by simp [List.mem_singleton.mp member])
    apply DefaultFree.word brace isBlank_space
    · intro ends
      exact absurd ends (by decide)
    · apply DefaultFree.word (solid_of_isNameChar x.lettered) isBlank_space
      · intro _
        exact DefaultFree.unlike_of_head solid other tail
      · exact free

/-- What closes the braces stands at the start of a text. -/
def Closes (t : Text) : Prop := ∃ u rest, Closing u ∧ t = u ++ rest

theorem defaultFree_alias (a : ScriptName) :
    DefaultFree ('a' :: (['s', ' '] ++ (a.text ++ " \x7d;".toList))) := by
  have closing : " \x7d;".toList = ' ' :: '\x7d' :: [';'] := by decide
  have split : 'a' :: (['s', ' '] ++ (a.text ++ " \x7d;".toList)) =
      ['a', 's'] ++ ' ' :: (a.text ++ ' ' :: '\x7d' :: [';']) := by
    rw [closing]
    rfl
  rw [split]
  apply DefaultFree.word (solid_of_isNameChar (by decide)) isBlank_space
  · intro ends
    exact absurd ends (by decide)
  · apply DefaultFree.word (solid_of_isNameChar a.lettered) isBlank_space
    · intro _
      exact DefaultFree.unlike_of_head (solid_marks _ (by decide)) (by decide) _
    · exact defaultFree_close

section Single

variable {x old : ScriptName} {front head rest tail : Text} {group : Nat}

/-- The head of an export in braces is where the only brace that opens is. -/
theorem braceHead_unique (single : '\x7b' ∉ tail) (opened : BraceHead head)
    (whole : braceOpen ++ (x.text ++ ' ' :: tail) = front ++ (head ++ (old.text ++ rest))) :
    front = [] ∧ head = braceOpen ∧ x.text ++ ' ' :: tail = old.text ++ rest := by
  cases opened with
  | @mk gap inner gap_blank inner_blank =>
    have shape : "export ".toList ++ '\x7b' :: ([' '] ++ (x.text ++ ' ' :: tail)) =
        (front ++ ("export".toList ++ gap)) ++ '\x7b' :: (inner ++ (old.text ++ rest)) := by
      rw [braceOpen_eq] at whole
      simpa only [List.append_assoc, List.cons_append, List.nil_append] using whole
    have once : '\x7b' ∉ [' '] ++ (x.text ++ ' ' :: tail) := by
      have other := x.not_mem (c := '\x7b') (by decide)
      simp [single, other]
    rcases Text.split_at_last once shape with ⟨start, follows⟩ | ⟨between, start, -⟩
    · obtain ⟨rfl, rfl⟩ := keyword_at_start start
      obtain ⟨rfl, named⟩ := ScriptName.gap_unique allBlank_space inner_blank follows
      exact ⟨rfl, rfl, named⟩
    · have impossible : '\x7b' ∈ "export ".toList := by
        rw [start]
        exact List.mem_append_right _ List.mem_cons_self
      exact absurd impossible (by decide)

/-- The only export of a text with one pair of braces is the one in them. -/
theorem braced_exports_iff (single : '\x7b' ∉ tail)
    (free : DefaultFree (braceOpen ++ (x.text ++ ' ' :: tail))) :
    Exports (braceOpen ++ (x.text ++ ' ' :: tail)) old.text front head rest group ↔
      front = [] ∧ head = braceOpen ∧ group = 1 ∧
        (∃ y, x.text = old.text ++ y ∧ rest = y ++ ' ' :: tail) ∧ old.text.EdgeBetween rest ∧
        Closes rest := by
  constructor
  · rintro ⟨whole, starts, ends, form⟩
    cases form with
    | default opened => exact absurd whole (free front head (old.text ++ rest) opened)
    | @braced u after opened closed =>
      obtain ⟨rfl, rfl, named⟩ := braceHead_unique single opened whole
      refine ⟨rfl, rfl, rfl, (ScriptName.append_eq_iff (by decide)).mp named, ?_, u, after, closed,
        rfl⟩
      exact (ScriptName.edgeBetween_append _).mp ends
  · rintro ⟨rfl, rfl, rfl, ⟨y, longer, rfl⟩, ends, u, after, closed, follows⟩
    have opened : BraceHead braceOpen := @BraceHead.mk [' '] [' '] allBlank_space allBlank_space
    constructor
    · rw [longer, List.append_assoc, List.nil_append]
    · rw [braceOpen_eq, List.append_assoc]
      exact edgeBetween_keyword _
    · exact (ScriptName.edgeBetween_append _).mpr ends
    · rw [follows]
      exact .braced opened closed

/-- The head of a default export is at the start. -/
theorem defaultHead_unique (formed : DefaultHead head)
    (whole : defaultOpen ++ (x.text ++ [';']) = front ++ (head ++ (old.text ++ rest))) :
    front = [] ∧ head = defaultOpen ∧ x.text ++ [';'] = old.text ++ rest := by
  have opened := formed
  cases opened with
  | @mk gap inner parted filled gap_blank inner_blank =>
    obtain ⟨d, gap, rfl⟩ := List.exists_cons_of_ne_nil parted
    have white : Text.isBlank d = true := gap_blank d List.mem_cons_self
    have shape : "export".toList ++ ' ' :: ("default".toList ++ ([' '] ++ (x.text ++ [';']))) =
        front ++ ("export".toList ++ d :: (gap ++ ("default".toList ++
          (inner ++ (old.text ++ rest))))) := by
      rw [defaultOpen_eq] at whole
      simpa only [List.append_assoc, List.cons_append, List.nil_append] using whole
    rcases DefaultFree.keyword_cases (solid_of_isNameChar (by decide)) isBlank_space white shape
      with ⟨first, rfl, begins⟩ | ⟨later, -, further⟩
    · obtain rfl : front = [] := List.self_eq_append_left.mp first
      have single : gap = [] := by
        cases gap with
        | nil => rfl
        | cons d gap =>
          have starts : "default".toList = 'd' :: "efault".toList := by decide
          rw [starts] at begins
          obtain ⟨rfl, -⟩ := List.cons.inj begins
          exact absurd (gap_blank 'd' (by simp)) (not_isBlank_of_isNameChar (by decide))
      rw [single, List.nil_append] at begins
      obtain ⟨rfl, named⟩ := ScriptName.gap_unique allBlank_space inner_blank
        (List.append_cancel_left begins)
      refine ⟨rfl, ?_, named⟩
      rw [single, defaultOpen_eq]
      rfl
    · refine absurd ?_ (defaultFree_default x later _ (old.text ++ rest) formed)
      simpa only [List.append_assoc, List.cons_append, List.nil_append] using further

/-- The only export of a text with a default export is that one. -/
theorem default_exports_iff :
    Exports (defaultOpen ++ (x.text ++ [';'])) old.text front head rest group ↔
      front = [] ∧ head = defaultOpen ∧ group = 2 ∧
        (∃ y, x.text = old.text ++ y ∧ rest = y ++ [';']) ∧ old.text.EdgeBetween rest := by
  constructor
  · rintro ⟨whole, starts, ends, form⟩
    cases form with
    | braced opened closed =>
      have brace : '\x7b' ∈ defaultOpen ++ (x.text ++ [';']) := by
        rw [whole]
        cases opened
        simp
      have absent : '\x7b' ∉ defaultOpen ++ (x.text ++ [';']) := by
        have other := x.not_mem (c := '\x7b') (by decide)
        have start : '\x7b' ∉ defaultOpen := by decide
        simp [start, other]
      exact absurd brace absent
    | default opened =>
      obtain ⟨rfl, rfl, named⟩ := defaultHead_unique opened whole
      refine ⟨rfl, rfl, rfl, (ScriptName.append_eq_iff (by decide)).mp named, ?_⟩
      exact (ScriptName.edgeBetween_append _).mp ends
  · rintro ⟨rfl, rfl, rfl, ⟨y, longer, rfl⟩, ends⟩
    have opened : DefaultHead defaultOpen := by
      rw [defaultOpen_eq]
      exact @DefaultHead.mk [' '] [' '] (by simp) (by simp) allBlank_space allBlank_space
    constructor
    · rw [longer, List.append_assoc, List.nil_append]
    · have split : defaultOpen = "export ".toList ++ "default ".toList := by decide
      rw [split, List.append_assoc]
      exact edgeBetween_keyword _
    · exact (ScriptName.edgeBetween_append _).mpr ends
    · exact .default opened

end Single

/-- A word and the brace that closes stand at the start of a text, perhaps with white space between
them. -/
def WordCloses (t : Text) : Prop :=
  ∃ word after rest : Text, word ≠ [] ∧ word.AllWord ∧ after.AllBlank ∧
    t = word ++ (after ++ '\x7d' :: rest)

/-- An alias and the brace that closes stand at the start of a text. -/
def AliasCloses (t : Text) : Prop :=
  ∃ before rest : Text, before ≠ [] ∧ before.AllBlank ∧ WordCloses rest ∧
    t = "as".toList ++ (before ++ rest)

theorem closes_iff {t : Text} :
    Closes t ↔ ∃ gap rest : Text, gap.AllBlank ∧ t = gap ++ rest ∧
      (rest.head? = some '\x7d' ∨ AliasCloses rest) := by
  constructor
  · rintro ⟨u, rest, ⟨blank⟩ | ⟨blank, a⟩, rfl⟩
    · exact ⟨_, '\x7d' :: rest, blank, by simp, .inl rfl⟩
    · refine ⟨_, a.text ++ '\x7d' :: rest, blank, by simp, .inr ?_⟩
      refine ⟨a.before, a.word ++ (a.after ++ '\x7d' :: rest), a.parted, a.before_blank,
        ⟨a.word, a.after, rest, a.named, a.word_word, a.after_blank, rfl⟩, ?_⟩
      simp [Alias.text]
  · rintro ⟨gap, rest, blank, rfl, closed | ⟨before, _, parted, white,
      ⟨word, after, rest, named, letters, trailing, rfl⟩, rfl⟩⟩
    · obtain ⟨rest, rfl⟩ := List.head?_eq_some_iff.mp closed
      exact ⟨_, rest, .plain blank, by simp⟩
    · let a : Alias := ⟨before, word, after, parted, named, white, letters, trailing⟩
      exact ⟨_, rest, .aliased blank a, by simp [a, Alias.text]⟩

section Closing

variable {y n t before rest : Text} {e : Char}

/-- White space before a character that is not blank is all there is. -/
theorem eq_of_blank_append (parted : before ≠ []) (blank : before.AllBlank)
    (solid : ¬ Text.isBlank e = true) (same : before ++ rest = ' ' :: e :: t) : rest = e :: t := by
  obtain ⟨b, before, rfl⟩ := List.exists_cons_of_ne_nil parted
  have further : before ++ rest = e :: t := (List.cons.inj same).2
  cases before with
  | nil => exact further
  | cons c before =>
    obtain ⟨rfl, -⟩ := List.cons.inj further
    exact absurd (blank c (by simp)) solid

theorem AliasCloses.head (closes : AliasCloses t) : t.head? = some 'a' := by
  obtain ⟨before, rest, -, -, -, rfl⟩ := closes
  rfl

/-- An alias after a name and a blank: the name is the keyword. -/
theorem aliasCloses_name (named : y.AllName) (solid : ¬ Text.isBlank e = true) :
    AliasCloses (y ++ ' ' :: e :: t) ↔ y = "as".toList ∧ WordCloses (e :: t) := by
  constructor
  · rintro ⟨before, rest, parted, white, word, split⟩
    obtain ⟨b, gap, rfl⟩ := List.exists_cons_of_ne_nil parted
    have first : Text.isBlank b = true := white b List.mem_cons_self
    have letters : Text.Solid "as".toList := solid_of_isNameChar (by decide)
    obtain ⟨keyword, rfl, further⟩ := Text.stretch_unique (solid_of_isNameChar named) letters
      (by simp [isBlank_space]) (by simpa using first) split
    rw [eq_of_blank_append parted white solid (congrArg (' ' :: ·) further.symm)] at word
    exact ⟨keyword, word⟩
  · rintro ⟨rfl, word⟩
    exact ⟨[' '], e :: t, by simp, allBlank_space, word, rfl⟩

/-- What closes the braces after a name and a blank: the rest of the name is empty, or it is taken
for the keyword of an alias. -/
theorem closes_after_name (named : y.AllName) (solid : ¬ Text.isBlank e = true) :
    Closes (y ++ ' ' :: e :: t) ↔
      y = [] ∧ (e = '\x7d' ∨ AliasCloses (e :: t)) ∨ y = "as".toList ∧ WordCloses (e :: t) := by
  rw [closes_iff]
  constructor
  · rintro ⟨gap, rest, blank, same, closes⟩
    have firm : ∃ h r, rest = h :: r ∧ ¬ Text.isBlank h = true := by
      rcases closes with closed | aliased
      · obtain ⟨r, rfl⟩ := List.head?_eq_some_iff.mp closed
        exact ⟨_, r, rfl, solid_marks _ (by decide)⟩
      · obtain ⟨r, rfl⟩ := List.head?_eq_some_iff.mp aliased.head
        exact ⟨_, r, rfl, not_isBlank_of_isNameChar (by decide)⟩
    obtain ⟨h, r, rfl, firm⟩ := firm
    cases y with
    | nil =>
      obtain ⟨-, rfl, rfl⟩ := Text.stretch_unique allBlank_space blank solid firm same
      refine .inl ⟨rfl, ?_⟩
      simpa using closes
    | cons c y =>
      have letter := named c List.mem_cons_self
      have none : Text.AllBlank [] := by decide
      obtain ⟨-, rfl, rfl⟩ := Text.stretch_unique none blank (not_isBlank_of_isNameChar letter) firm
        (same : [] ++ c :: (y ++ ' ' :: e :: t) = gap ++ h :: r)
      rcases closes with closed | aliased
      · obtain rfl : c = '\x7d' := Option.some.inj closed
        exact absurd letter (by decide)
      · exact .inr ((aliasCloses_name named solid).mp aliased)
  · rintro (⟨rfl, closed⟩ | ⟨rfl, word⟩)
    · refine ⟨[' '], e :: t, allBlank_space, rfl, ?_⟩
      simpa using closed
    · refine ⟨[], "as".toList ++ ' ' :: e :: t, by decide, rfl, .inr ?_⟩
      exact ⟨[' '], e :: t, by simp, allBlank_space, word, rfl⟩

/-- A name is the word before the brace that closes if all of it are word characters. -/
theorem wordCloses_name (filled : n ≠ []) (named : n.AllName)
    (solid : ¬ Text.isBlank e = true) :
    WordCloses (n ++ ' ' :: e :: t) ↔ n.AllWord ∧ e = '\x7d' := by
  have blank : ¬ Text.isBlank '\x7d' = true := solid_marks _ (by decide)
  constructor
  · rintro ⟨word, after, rest, -, letters, white, same⟩
    rcases List.append_eq_append_iff.mp same with ⟨z, longer, follows⟩ | ⟨z, longer, follows⟩
    · cases z with
      | nil =>
        rw [List.append_nil] at longer
        obtain ⟨-, closed, -⟩ := Text.stretch_unique allBlank_space white solid blank
          (follows : [' '] ++ e :: t = after ++ '\x7d' :: rest)
        exact ⟨longer ▸ letters, closed⟩
      | cons c z =>
        obtain ⟨rfl, -⟩ := List.cons.inj follows
        have letter := letters ' ' (by rw [longer]; simp)
        exact absurd letter (isWord_marks ' ' (by decide))
    · cases z with
      | nil =>
        rw [List.append_nil] at longer
        obtain ⟨-, closed, -⟩ := Text.stretch_unique white allBlank_space blank solid
          (follows : after ++ '\x7d' :: rest = [' '] ++ e :: t)
        exact ⟨longer ▸ letters, closed.symm⟩
      | cons c z =>
        have letter := named c (by rw [longer]; simp)
        have none : Text.AllBlank [] := by decide
        obtain ⟨-, rfl, -⟩ := Text.stretch_unique white none blank
          (not_isBlank_of_isNameChar letter)
          (follows : after ++ '\x7d' :: rest = [] ++ c :: (z ++ ' ' :: e :: t))
        exact absurd letter (by decide)
  · rintro ⟨letters, rfl⟩
    exact ⟨n, [' '], t, filled, letters, allBlank_space, rfl⟩

/-- The braces of an export are closed right after a name only if the name is not longer. -/
theorem closes_plain_iff (named : y.AllName) :
    Closes (y ++ " \x7d;".toList) ↔ y = [] := by
  have split : " \x7d;".toList = ' ' :: '\x7d' :: [';'] := by decide
  have word : ¬ WordCloses ('\x7d' :: [';']) := by
    rintro ⟨word, after, rest, filled, letters, -, same⟩
    obtain ⟨c, word, rfl⟩ := List.exists_cons_of_ne_nil filled
    obtain ⟨rfl, -⟩ := List.cons.inj same
    exact absurd (letters _ List.mem_cons_self) (isWord_marks _ (by decide))
  rw [split, closes_after_name named (solid_marks _ (by decide))]
  simp [word]

/-- The braces of an export with an alias are closed after a name only if the name is not longer
and the alias has word characters only. -/
theorem closes_aliased_iff (named : y.AllName) (a : ScriptName) :
    Closes (y ++ (" as ".toList ++ (a.text ++ " \x7d;".toList))) ↔ y = [] ∧ a.text.AllWord := by
  obtain ⟨c, rest, begins, letter, firm⟩ := a.exists_cons
  have other : c ≠ '\x7d' := by
    rintro rfl
    exact absurd letter (by decide)
  have keyword : " as ".toList = ' ' :: 'a' :: ['s', ' '] := by decide
  have closing : " \x7d;".toList = ' ' :: '\x7d' :: [';'] := by decide
  have shape : 'a' :: 's' :: ' ' :: (a.text ++ " \x7d;".toList) =
      "as".toList ++ ' ' :: c :: (rest ++ " \x7d;".toList) := by
    rw [begins]
    rfl
  have aliased : AliasCloses ('a' :: 's' :: ' ' :: (a.text ++ " \x7d;".toList)) ↔
      a.text.AllWord := by
    rw [shape, aliasCloses_name (by decide) firm, ← List.cons_append, ← begins, closing,
      wordCloses_name a.filled a.lettered (solid_marks _ (by decide))]
    simp
  have word : ¬ WordCloses ('a' :: 's' :: ' ' :: (a.text ++ " \x7d;".toList)) := by
    rw [shape, wordCloses_name (by decide) (by decide) firm]
    exact fun closed => other closed.2
  have split : y ++ (" as ".toList ++ (a.text ++ " \x7d;".toList)) =
      y ++ ' ' :: 'a' :: ('s' :: ' ' :: (a.text ++ " \x7d;".toList)) := by
    rw [keyword]
    rfl
  rw [split, closes_after_name named (not_isBlank_of_isNameChar (by decide)), aliased]
  constructor
  · rintro (⟨empty, impossible | letters⟩ | ⟨-, closed⟩)
    · exact absurd impossible (by decide)
    · exact ⟨empty, letters⟩
    · exact absurd closed word
  · rintro ⟨empty, letters⟩
    exact .inl ⟨empty, .inr letters⟩

end Closing

namespace ScriptName

/-- A text that exports a name in braces. -/
def bracedExport (x : ScriptName) : Text := braceOpen ++ (x.text ++ " \x7d;".toList)

/-- A text that exports a name in braces with an alias. -/
def aliasedExport (x a : ScriptName) : Text :=
  braceOpen ++ (x.text ++ (" as ".toList ++ (a.text ++ " \x7d;".toList)))

/-- A text that exports a name as the default. -/
def defaultExport (x : ScriptName) : Text := defaultOpen ++ (x.text ++ ";".toList)

end ScriptName

namespace Suggestor

/-- The edits that a renaming of an export proposes for a text. -/
def exportEdits (old : ScriptName) (new text : Text) (url : Option String) :
    List (Nat × Nat × Text) :=
  ((renameExport old.text new).proposed ⟨text, url⟩).map Patch.edit

variable {x old : ScriptName} {tail : Text}

/-- What is renamed in a text with an export in braces, given when the braces are closed after the
name. -/
theorem exportEdits_braced {closed : Prop} [Decidable closed] (single : '\x7b' ∉ tail)
    (free : DefaultFree (braceOpen ++ (x.text ++ ' ' :: tail)))
    (closes : ∀ y : Text, y.AllName →
      (Closes (y ++ ' ' :: tail) ↔ y = [] ∧ closed)) (new : Text) (url : Option String) :
    exportEdits old new (braceOpen ++ (x.text ++ ' ' :: tail)) url =
      if x = old ∧ old.text.getLast? ≠ some '$' ∧ closed then [(9, 9 + x.text.length, new)]
      else [] := by
  have edge {y : Text} (longer : x.text = old.text ++ y) :
      old.text.EdgeBetween (y ++ ' ' :: tail) ↔ EdgeWithin old.text y :=
    ScriptName.edgeBetween_iff longer (isWord_marks _ (by decide))
  have holds : (∃ rest, (∃ y, x.text = old.text ++ y ∧ rest = y ++ ' ' :: tail) ∧
      old.text.EdgeBetween rest ∧ Closes rest) ↔
        x = old ∧ old.text.getLast? ≠ some '$' ∧ closed := by
    constructor
    · rintro ⟨_, ⟨y, longer, rfl⟩, ends, closing⟩
      have named : y.AllName :=
        fun c member => x.lettered c (by rw [longer]; exact List.mem_append_right _ member)
      obtain ⟨rfl, closed⟩ := (closes y named).mp closing
      rw [edge longer] at ends
      rw [List.append_nil] at longer
      exact ⟨ScriptName.eq_of_text_eq longer, by simpa [EdgeWithin] using ends, closed⟩
    · rintro ⟨rfl, ends, closed⟩
      refine ⟨_, ⟨[], (List.append_nil _).symm, rfl⟩, ?_, (closes [] (by decide)).mpr ⟨rfl, closed⟩⟩
      rw [edge (List.append_nil _).symm]
      simpa [EdgeWithin] using ends
  have width : braceOpen.length = 9 := by decide
  rw [exportEdits, renameExport_single (fun _ _ _ _ => braced_exports_iff single free) holds, width]
  by_cases renamed : x = old ∧ old.text.getLast? ≠ some '$' ∧ closed
  · rw [if_pos renamed, if_pos renamed, renamed.1]
  · rw [if_neg renamed, if_neg renamed]

theorem exportEdits_bracedExport (old x : ScriptName) (new : Text) (url : Option String) :
    exportEdits old new x.bracedExport url =
      if x = old ∧ old.text.getLast? ≠ some '$' then [(9, 9 + x.text.length, new)] else [] := by
  have closing : " \x7d;".toList = ' ' :: '\x7d' :: [';'] := by decide
  have free := defaultFree_braced x (solid_marks '\x7d' (by decide)) (by decide) defaultFree_close
  have closes : ∀ y : Text, y.AllName →
      (Closes (y ++ ' ' :: '\x7d' :: [';']) ↔ y = [] ∧ True) := by
    intro y named
    rw [← closing, closes_plain_iff named, and_true]
  rw [ScriptName.bracedExport, closing, exportEdits_braced (by decide) free closes]
  simp only [and_true]

theorem exportEdits_aliasedExport (old x a : ScriptName) (new : Text) (url : Option String) :
    exportEdits old new (x.aliasedExport a) url =
      if x = old ∧ old.text.getLast? ≠ some '$' ∧ '$' ∉ a.text then
        [(9, 9 + x.text.length, new)] else [] := by
  have keyword : " as ".toList = ' ' :: 'a' :: ['s', ' '] := by decide
  have tail : " as ".toList ++ (a.text ++ " \x7d;".toList) =
      ' ' :: 'a' :: (['s', ' '] ++ (a.text ++ " \x7d;".toList)) := by
    rw [keyword]
    rfl
  have single : '\x7b' ∉ 'a' :: (['s', ' '] ++ (a.text ++ " \x7d;".toList)) := by
    have other := a.not_mem (c := '\x7b') (by decide)
    simp [other]
  have closes : ∀ y : Text, y.AllName →
      (Closes (y ++ ' ' :: 'a' :: (['s', ' '] ++ (a.text ++ " \x7d;".toList))) ↔
        y = [] ∧ '$' ∉ a.text) := by
    intro y named
    rw [← tail, closes_aliased_iff named, a.allWord_iff]
  have free := defaultFree_braced x (not_isBlank_of_isNameChar (by decide)) (by decide)
    (defaultFree_alias a)
  rw [ScriptName.aliasedExport, tail, exportEdits_braced single free closes]

theorem exportEdits_defaultExport (old x : ScriptName) (new : Text) (url : Option String) :
    exportEdits old new x.defaultExport url =
      if old.text <+: x.text ∧ EdgeWithin old.text (x.text.drop old.text.length) then
        [(15, 15 + old.text.length, new)] else [] := by
  have holds : (∃ rest, (∃ y, x.text = old.text ++ y ∧ rest = y ++ [';']) ∧
      old.text.EdgeBetween rest) ↔
        old.text <+: x.text ∧ EdgeWithin old.text (x.text.drop old.text.length) := by
    constructor
    · rintro ⟨_, ⟨y, longer, rfl⟩, ends⟩
      rw [ScriptName.edgeBetween_iff longer (isWord_marks _ (by decide))] at ends
      rw [longer, List.drop_left]
      exact ⟨List.prefix_append _ _, ends⟩
    · rintro ⟨⟨y, longer⟩, ends⟩
      rw [← longer, List.drop_left] at ends
      refine ⟨_, ⟨y, longer.symm, rfl⟩, ?_⟩
      rwa [ScriptName.edgeBetween_iff longer.symm (isWord_marks _ (by decide))]
  have width : defaultOpen.length = 15 := by decide
  have semicolon : ";".toList = [';'] := by decide
  rw [exportEdits, ScriptName.defaultExport, semicolon,
    renameExport_single (fun _ _ _ _ => default_exports_iff) holds, width]

/-- An edge of a word within names without dollar signs is at the end of the longer one. -/
theorem edgeWithin_iff {old y : Text} (plain : '$' ∉ old) (clear : '$' ∉ y) :
    EdgeWithin old y ↔ y = [] := by
  have last : old.getLast? ≠ some '$' := fun same => plain (List.mem_of_getLast? same)
  have next : y.head? ≠ some '$' := fun same => clear (List.mem_of_head? same)
  simp [EdgeWithin, last, next]

/-- Of names without dollar signs, one starts the other and ends at an edge of a word only if they
are the same. -/
theorem prefix_edgeWithin_iff {old x : ScriptName} (plain : '$' ∉ old.text) (clear : '$' ∉ x.text) :
    old.text <+: x.text ∧ EdgeWithin old.text (x.text.drop old.text.length) ↔ x = old := by
  constructor
  · rintro ⟨⟨y, longer⟩, ends⟩
    have bare : '$' ∉ y := by
      intro member
      rw [← longer] at clear
      exact clear (List.mem_append_right _ member)
    rw [← longer, List.drop_left, edgeWithin_iff plain bare] at ends
    rw [ends, List.append_nil] at longer
    exact ScriptName.eq_of_text_eq longer.symm
  · rintro rfl
    refine ⟨List.prefix_refl _, ?_⟩
    rw [List.drop_length]
    exact (edgeWithin_iff plain List.not_mem_nil).mpr rfl

/-- What the renaming of an export does to a text that holds a single export, for all names. In
braces the name is renamed unless it ends in a dollar sign or its alias has one. As the default
export it is renamed wherever it starts the exported name and an edge of a word follows, which is
also next to a dollar sign. If there is no dollar sign in the names, then the name is renamed where
it is exported, and no other name is. -/
theorem export_renames_name (old x a : ScriptName) (new : Text) (url : Option String) :
    (∀ text, (((renameExport old.text new).proposals ⟨text, url⟩).harvest {}).fault = none) ∧
      exportEdits old new x.bracedExport url =
        (if x = old ∧ old.text.getLast? ≠ some '$' then [(9, 9 + x.text.length, new)] else []) ∧
      exportEdits old new (x.aliasedExport a) url =
        (if x = old ∧ old.text.getLast? ≠ some '$' ∧ '$' ∉ a.text then
          [(9, 9 + x.text.length, new)] else []) ∧
      exportEdits old new x.defaultExport url =
        (if old.text <+: x.text ∧ EdgeWithin old.text (x.text.drop old.text.length) then
          [(15, 15 + old.text.length, new)] else []) ∧
      ('$' ∉ old.text → '$' ∉ x.text → '$' ∉ a.text →
        exportEdits old new x.bracedExport url =
            (if x = old then [(9, 9 + x.text.length, new)] else []) ∧
          exportEdits old new (x.aliasedExport a) url =
            (if x = old then [(9, 9 + x.text.length, new)] else []) ∧
          exportEdits old new x.defaultExport url =
            (if x = old then [(15, 15 + x.text.length, new)] else [])) := by
  have braced := exportEdits_bracedExport old x new url
  have aliased := exportEdits_aliasedExport old x a new url
  have asDefault := exportEdits_defaultExport old x new url
  refine ⟨fun text => (renameExport_edits _ _ _).2, braced, aliased, asDefault, ?_⟩
  intro plain clear bare
  have last : old.text.getLast? ≠ some '$' := fun same => plain (List.mem_of_getLast? same)
  refine ⟨by simpa [last] using braced, by simpa [last, bare] using aliased, ?_⟩
  have renamed := prefix_edgeWithin_iff plain clear
  rw [asDefault]
  by_cases same : x = old
  · rw [if_pos (renamed.mpr same), if_pos same, same]
  · have kept := mt renamed.mp same
    rw [if_neg kept, if_neg same]

/-- A name of one letter. -/
def shortName : ScriptName := ⟨['a'], by decide, by decide, by decide⟩

/-- A longer name with the short one at its start. -/
def longName : ScriptName := ⟨['a', 'b'], by decide, by decide, by decide⟩

/-- The short name is renamed where it is exported, and not in the longer name. -/
theorem short_name_renamed :
    (exportEdits shortName ['c'] shortName.bracedExport none = [(9, 10, ['c'])] ∧
        exportEdits shortName ['c'] (shortName.aliasedExport longName) none = [(9, 10, ['c'])] ∧
        exportEdits shortName ['c'] shortName.defaultExport none = [(15, 16, ['c'])]) ∧
      exportEdits shortName ['c'] longName.bracedExport none = [] ∧
        exportEdits shortName ['c'] (longName.aliasedExport shortName) none = [] ∧
        exportEdits shortName ['c'] longName.defaultExport none = [] := by
  constructor
  · exact (export_renames_name shortName shortName longName ['c'] none).2.2.2.2 (by decide)
      (by decide) (by decide)
  · exact (export_renames_name shortName longName shortName ['c'] none).2.2.2.2 (by decide)
      (by decide) (by decide)

/-- A name with a dollar sign after the short one. -/
def innerDollar : ScriptName := ⟨['a', '$', 'c'], by decide, by decide, by decide⟩

/-- A name that ends in a dollar sign. -/
def lastDollar : ScriptName := ⟨['a', '$'], by decide, by decide, by decide⟩

/-- A dollar sign makes an edge within a name and hides the one at its end: the start of a longer
name is renamed, and a name is not renamed in any of its exports. -/
theorem dollar_sign_misleads :
    exportEdits shortName ['b'] innerDollar.defaultExport none = [(15, 16, ['b'])] ∧
      exportEdits lastDollar ['b'] lastDollar.bracedExport none = [] ∧
      exportEdits lastDollar ['b'] (lastDollar.aliasedExport shortName) none = [] ∧
      exportEdits lastDollar ['b'] lastDollar.defaultExport none = [] := by
  rw [exportEdits_defaultExport, exportEdits_bracedExport, exportEdits_aliasedExport,
    exportEdits_defaultExport]
  decide

end Suggestor

end Emend
