import Emend.Proofs.Resolution
import Emend.Proofs.WrittenValues

/-!
# Documents as they are written

A document of sections is written with a header for each section and a line for
each of its entries. Such a text is read back as the sections it was written for:
headers open their tables one after the other, and every pair goes to the table
that was opened last.

The forms of lines and sections are stated as relations of their own. Writing
yields a text of that form, and any text of that form is read, so neither side is
described through the other. What the reader remembers besides its entries, which
tables were opened and which values were closed, never refuses such a text, as
long as no name is used twice.
-/

namespace Emend.Document

/-! ### Keys -/

/-- A key starts with one of its characters or with a quote, and so with none of
the characters that mean something else at the start of a line. -/
theorem writeKey_starts (k : Text) :
    ∃ c more, writeKey k = c :: more ∧ c ≠ '[' ∧ c ≠ '#' ∧ c ≠ '\n' ∧ isGap c = false := by
  unfold writeKey
  split
  · rename_i bare
    cases k with
    | nil => cases bare
    | cons c more =>
      simp only [List.isEmpty_cons, Bool.not_false, List.all_cons, Bool.true_and,
        Bool.and_eq_true] at bare
      have other {d : Char} (special : isBare d = false) : c ≠ d := by
        rintro rfl
        simp [bare.1] at special
      have blank : c ≠ ' ' := other rfl
      have tab : c ≠ '\t' := other rfl
      exact ⟨c, more, rfl, other rfl, other rfl, other rfl, by simp [isGap, blank, tab]⟩
  · exact ⟨'"', _, rfl, by decide⟩

/-- A part of a key is read back up to a character that is not one of keys. -/
theorem keyPart_writeKey (k : Text) {d : Char} (apart : isBare d = false) (rest : Text) :
    keyPart (writeKey k ++ d :: rest) = some (k, d :: rest) := by
  unfold writeKey
  split
  · rename_i bare
    cases k with
    | nil => cases bare
    | cons c more =>
      simp only [List.isEmpty_cons, Bool.not_false, Bool.true_and, List.all_eq_true] at bare
      have taken : (c :: more ++ d :: rest).takeWhile isBare = c :: more := by
        rw [List.takeWhile_append_of_pos bare, List.takeWhile_cons_of_neg (by simp [apart]),
          List.append_nil]
      have left : (c :: more ++ d :: rest).dropWhile isBare = d :: rest := by
        rw [List.dropWhile_append_of_pos bare, List.dropWhile_cons_of_neg (by simp [apart])]
      rw [List.cons_append] at taken left ⊢
      simp only [keyPart, bare c List.mem_cons_self, if_true, taken, left]
  · have quoted : writeString k ++ d :: rest =
        '"' :: (k.flatMap writeChar ++ '"' :: d :: rest) := by
      simp [writeString]
    rw [quoted, keyPart]
    simp only [basic_flatMap_writeChar]
    rfl

/-- A key is read back with the blanks behind it, unless a dot follows them. -/
theorem key_writeKey (k : Text) {d : Char} {rest : Text} (apart : isBare d = false)
    (undotted : (skipGap (d :: rest)).head? ≠ some '.') :
    key (writeKey k ++ d :: rest) = some ([k], skipGap (d :: rest)) := by
  rw [key, keyWithin, keyPart_writeKey k apart]
  simp only [Option.bind_eq_bind, Option.bind_some]
  split
  · rename_i more dotted
    exact absurd (by rw [dotted]; rfl) undotted
  · rfl

theorem skipGap_cons {c : Char} (solid : isGap c = false) (rest : Text) :
    skipGap (c :: rest) = c :: rest :=
  List.dropWhile_cons_of_neg (by simp [solid])

/-! ### Items -/

/-- A line of a section. -/
theorem item_line (k : Text) {text : Text} {v : Value} (spelt : Spells text v) (rest : Text) :
    item (writeKey k ++ " = ".toList ++ text ++ '\n' :: rest) =
      .ok (.pair [k] v, '\n' :: rest) := by
  have whole : writeKey k ++ " = ".toList ++ text ++ '\n' :: rest =
      writeKey k ++ ' ' :: '=' :: ' ' :: (text ++ '\n' :: rest) := by simp
  have blank : skipGap (' ' :: '=' :: ' ' :: (text ++ '\n' :: rest)) =
      '=' :: ' ' :: (text ++ '\n' :: rest) := rfl
  have named : key (writeKey k ++ ' ' :: '=' :: ' ' :: (text ++ '\n' :: rest)) =
      some ([k], '=' :: ' ' :: (text ++ '\n' :: rest)) := by
    rw [key_writeKey k rfl (by rw [blank]; simp), blank]
  have gap : skipGap (' ' :: (text ++ '\n' :: rest)) = text ++ '\n' :: rest := by
    obtain ⟨c, more, rfl, starts⟩ := spelt.exists_cons
    simp only [startsValue, Bool.not_eq_true', Bool.or_eq_false_iff] at starts
    exact skipGap_cons starts.1.1.1 (more ++ '\n' :: rest)
  have value : value (text ++ '\n' :: rest) = .ok (v, '\n' :: rest) := by
    apply spelt.read _ _ _ (.inr rfl)
    simp only [List.length_append]
    omega
  have read : pair Document.value (writeKey k ++ ' ' :: '=' :: ' ' :: (text ++ '\n' :: rest)) =
      .ok (([k], v), '\n' :: rest) := by
    simp only [pair, named, require, bind, Except.bind, gap, value]
  obtain ⟨c, more, starts, bracket, _⟩ := writeKey_starts k
  rw [whole]
  rw [starts, List.cons_append] at read ⊢
  rw [item, read]
  · rfl
  · exact fun _ same => bracket (List.cons.inj same).1
  · exact fun _ same => bracket (List.cons.inj same).1

/-- The header of a section. -/
theorem item_header (name rest : Text) :
    item ('[' :: writeKey name ++ [']', '\n'] ++ rest) = .ok (.table [name], '\n' :: rest) := by
  have whole : '[' :: writeKey name ++ [']', '\n'] ++ rest =
      '[' :: (writeKey name ++ ']' :: '\n' :: rest) := by simp
  have solid : skipGap (']' :: '\n' :: rest) = ']' :: '\n' :: rest := rfl
  have named : key (writeKey name ++ ']' :: '\n' :: rest) = some ([name], ']' :: '\n' :: rest) := by
    rw [key_writeKey name rfl (by rw [solid]; simp), solid]
  obtain ⟨c, more, starts, bracket, _, _, gap⟩ := writeKey_starts name
  rw [whole]
  rw [starts, List.cons_append] at named ⊢
  rw [item, skipGap_cons gap, named]
  · rfl
  · exact fun _ same => bracket (List.cons.inj same).1

/-! ### What the reader remembers -/

/-- The names of entries. -/
def names (entries : Entries) : List Text := entries.map Prod.fst

theorem lookup_eq_none {k : Text} {entries : Entries} (absent : k ∉ names entries) :
    Value.lookup k entries = none := by
  induction entries with
  | nil => rfl
  | cons entry entries inductionHypothesis =>
    simp only [names, List.map_cons, List.mem_cons, not_or] at absent
    rw [Value.lookup, if_neg (Ne.symm absent.1)]
    exact inductionHypothesis absent.2

theorem lookup_last {k : Text} {entries : Entries} (absent : k ∉ names entries) (v : Value) :
    Value.lookup k (entries ++ [(k, v)]) = some v := by
  induction entries with
  | nil => simp [Value.lookup]
  | cons entry entries inductionHypothesis =>
    simp only [names, List.map_cons, List.mem_cons, not_or] at absent
    rw [List.cons_append, Value.lookup, if_neg (Ne.symm absent.1)]
    exact inductionHypothesis absent.2

theorem put_last {k : Text} {entries : Entries} (absent : k ∉ names entries) (old new : Value) :
    changeAt.put k new (entries ++ [(k, old)]) = entries ++ [(k, new)] := by
  induction entries with
  | nil => simp [changeAt.put]
  | cons entry entries inductionHypothesis =>
    simp only [names, List.map_cons, List.mem_cons, not_or] at absent
    have rest := inductionHypothesis absent.2
    obtain ⟨other, value⟩ := entry
    rw [changeAt.put] at rest ⊢
    simp only [List.cons_append, List.map_cons, rest, if_neg (Ne.symm absent.1)]

/-- A key does not lead into a longer one. -/
theorem leadsInto_eq_false {keys : List Key} {k : Key}
    (longer : ∀ outer ∈ keys, k.length < outer.length) : leadsInto keys k = false := by
  rw [leadsInto, List.any_eq_false]
  intro outer member
  rw [List.isPrefixOf_iff_prefix]
  intro leads
  exact absurd leads.length_le (Nat.not_le.mpr (longer outer member))

/-- What a draft remembers of sections that were read: their entries, and that no
table but theirs was opened and only values inside of them were closed. -/
structure Draft.Holds (d : Draft) (done : Entries) : Prop where
  entries : d.entries = done
  pending : d.pending = []
  opened : ∀ k ∈ d.opened, ∃ name ∈ names done, k = [name]
  closed : ∀ k ∈ d.closed, 2 ≤ k.length

namespace Draft.Holds

variable {d : Draft} {done inner : Entries} {name k : Text}

/-- A header with a new name opens an empty table. -/
theorem openTable (holds : d.Holds done) (new : name ∉ names done) :
    ∃ d', d.openTable [name] = some d' ∧ d'.Holds (done ++ [(name, .table [])]) ∧
      d'.header = [name] := by
  have unopened : (d.pending ++ d.opened).contains [name] = false := by
    rw [holds.pending, List.nil_append, List.contains_eq_mem, decide_eq_false_iff_not]
    intro member
    obtain ⟨other, known, same⟩ := holds.opened _ member
    exact new ((List.cons.inj same).1 ▸ known)
  have unclosed : leadsInto d.closed [name] = false := leadsInto_eq_false holds.closed
  have added : changeAt true some [name] d.entries = some (done ++ [(name, .table [])]) := by
    simp [changeAt, holds.entries, lookup_eq_none new]
  have accepted : d.openTable [name] = some { d with
      entries := done ++ [(name, .table [])]
      header := [name]
      opened := [name] :: (d.pending ++ d.opened)
      pending := [] } := by
    simp only [Draft.openTable, unopened, unclosed, added]
    rfl
  refine ⟨_, accepted, ⟨rfl, rfl, ?_, holds.closed⟩, rfl⟩
  intro key member
  rw [holds.pending, List.nil_append] at member
  rcases List.mem_cons.mp member with rfl | member
  · exact ⟨name, by simp [names], rfl⟩
  · obtain ⟨other, known, same⟩ := holds.opened _ member
    refine ⟨other, ?_, same⟩
    rw [names, List.map_append]
    exact List.mem_append_left _ known

/-- A pair with a new key goes to the table that was opened last. -/
theorem addPair (holds : d.Holds (done ++ [(name, .table inner)])) (header : d.header = [name])
    (new : name ∉ names done) (fresh : k ∉ names inner) (v : Value) :
    ∃ d', d.addPair [k] v = some d' ∧ d'.Holds (done ++ [(name, .table (inner ++ [(k, v)]))]) ∧
      d'.header = [name] := by
  have unclosed : leadsInto d.closed [name] = false := leadsInto_eq_false holds.closed
  have added : changeAt true (addNew k v) [name] d.entries =
      some (done ++ [(name, .table (inner ++ [(k, v)]))]) := by
    simp [changeAt, holds.entries, lookup_last new, addNew, lookup_eq_none fresh, put_last new]
  have way : through d.header [k] = [] := rfl
  have outer : (d.header ++ [k]).dropLast = [name] := by rw [header]; rfl
  have accepted : d.addPair [k] v = some { d with
      entries := done ++ [(name, .table (inner ++ [(k, v)]))]
      pending := d.pending
      closed := if isClosed v then (d.header ++ [k]) :: d.closed else d.closed } := by
    simp [Draft.addPair, way, outer, unclosed, added]
  refine ⟨_, accepted, ⟨rfl, holds.pending, ?_, ?_⟩, header⟩
  · intro key member
    obtain ⟨other, known, same⟩ := holds.opened key member
    exact ⟨other, by simpa [names] using known, same⟩
  · intro key member
    simp only at member
    split at member
    · rcases List.mem_cons.mp member with rfl | member
      · simp [header]
      · exact holds.closed key member
    · exact holds.closed key member

end Draft.Holds

/-! ### Lines and sections -/

/-- Sections as the entries of a document. -/
def tables (sections : List (Text × Entries)) : Entries :=
  sections.map fun s => (s.1, .table s.2)

/-- The lines of a section, in the order of its entries. -/
inductive Lines : Entries → Text → Prop where
  | nil : Lines [] []
  | cons {k text lines : Text} {v : Value} {entries : Entries} (spelt : Spells text v)
      (more : Lines entries lines) :
      Lines ((k, v) :: entries) (writeKey k ++ " = ".toList ++ text ++ '\n' :: lines)

/-- Sections with their headers, and a blank line before each one that does not
come first. -/
inductive Sections : Bool → List (Text × Entries) → Text → Prop where
  | nil (started : Bool) : Sections started [] []
  | cons {started : Bool} {name lines text : Text} {entries : Entries}
      {sections : List (Text × Entries)} (body : Lines entries lines)
      (more : Sections true sections text) :
      Sections started ((name, entries) :: sections)
        (blankLine started ++ ('[' :: writeKey name ++ [']', '\n'] ++ lines) ++ text)

/-- An item on a line is added to the draft, and reading goes on with the next
line. -/
theorem fill_item {d d' : Draft} {c : Char} {more rest : Text} {first : Item} (fuel : Nat)
    (starts : c ≠ '#' ∧ c ≠ '\n' ∧ isGap c = false)
    (taken : item (c :: more) = .ok (first, '\n' :: rest)) (added : d.add first = some d') :
    fill (fuel + 1) d (c :: more) = fill fuel d' rest := by
  have lineEnd : lineEnd ('\n' :: rest) = some rest := rfl
  rw [fill, skipGap_cons starts.2.2]
  split
  · rename_i none
    cases none
  · rename_i same
    exact absurd (List.cons.inj same).1 starts.2.1
  · rename_i same
    exact absurd (List.cons.inj same).1 starts.1
  · simp only [taken, added, lineEnd, require, bind, Except.bind]

/-- A blank line is passed over. -/
theorem fill_blankLine (started : Bool) (d : Draft) {rest : Text} {fuel : Nat}
    (enough : (blankLine started ++ rest).length < fuel) :
    ∃ fuel', fill fuel d (blankLine started ++ rest) = fill fuel' d rest ∧ rest.length < fuel' := by
  cases started with
  | false => exact ⟨fuel, rfl, enough⟩
  | true =>
    cases fuel with
    | zero => cases enough
    | succ fuel => exact ⟨fuel, rfl, Nat.lt_of_succ_lt_succ enough⟩

/-- The lines of a section add their entries to the table that was opened last. -/
theorem Lines.fill_append {entries : Entries} {lines : Text} (body : Lines entries lines)
    {d : Draft} {done inner : Entries} {name : Text}
    (holds : d.Holds (done ++ [(name, .table inner)])) (header : d.header = [name])
    (new : name ∉ names done) (distinct : (names (inner ++ entries)).Nodup) {fuel : Nat}
    (rest : Text) (enough : (lines ++ rest).length < fuel) :
    ∃ fuel' d', fill fuel d (lines ++ rest) = fill fuel' d' rest ∧ rest.length < fuel' ∧
      d'.Holds (done ++ [(name, .table (inner ++ entries))]) := by
  induction body generalizing d inner fuel with
  | nil => exact ⟨fuel, d, rfl, enough, by rwa [List.append_nil]⟩
  | @cons k text lines v entries spelt more inductionHypothesis =>
    have fresh : k ∉ names inner := by
      rw [names, List.map_append, List.nodup_append] at distinct
      intro member
      exact distinct.2.2 k member k (by simp) rfl
    obtain ⟨d', added, holds', header'⟩ := holds.addPair header new fresh v
    have whole : writeKey k ++ " = ".toList ++ text ++ '\n' :: lines ++ rest =
        writeKey k ++ " = ".toList ++ text ++ '\n' :: (lines ++ rest) := by simp
    have taken := item_line k spelt (lines ++ rest)
    obtain ⟨c, word, key, _, comment, newline, gap⟩ := writeKey_starts k
    rw [whole] at enough ⊢
    simp only [key, List.cons_append] at enough taken ⊢
    cases fuel with
    | zero => cases enough
    | succ fuel =>
      rw [fill_item fuel ⟨comment, newline, gap⟩ taken added]
      have again : inner ++ (k, v) :: entries = inner ++ [(k, v)] ++ entries := by simp
      rw [again] at distinct ⊢
      apply inductionHypothesis holds' header' distinct
      simp only [List.length_cons, List.length_append] at enough ⊢
      omega

/-- Sections are read one after the other, as long as no name comes twice. -/
theorem Sections.fill_eq {started : Bool} {sections : List (Text × Entries)} {text : Text}
    (written : Sections started sections text) {d : Draft} {done : Entries} (holds : d.Holds done)
    (distinct : (names done ++ sections.map Prod.fst).Nodup)
    (keys : ∀ s ∈ sections, (names s.2).Nodup) {fuel : Nat} (enough : text.length < fuel) :
    ∃ d', fill fuel d text = .ok d' ∧ d'.entries = done ++ tables sections := by
  induction written generalizing d done fuel with
  | nil started =>
    cases fuel with
    | zero => cases enough
    | succ fuel => exact ⟨d, rfl, by simp [holds.entries, tables]⟩
  | @cons started name lines text entries sections body more inductionHypothesis =>
    have new : name ∉ names done := by
      rw [List.nodup_append] at distinct
      intro member
      exact distinct.2.2 name member name (by simp) rfl
    obtain ⟨entered, opened, empty, header⟩ := holds.openTable new
    have taken := item_header name (lines ++ text)
    rw [List.append_assoc] at enough ⊢
    obtain ⟨budget, passed, enough⟩ := fill_blankLine started d enough
    simp only [List.cons_append, List.append_assoc] at taken enough passed ⊢
    cases budget with
    | zero => cases enough
    | succ budget =>
      rw [passed, fill_item budget (by decide) taken opened]
      have room : (lines ++ text).length < budget := by
        simp only [List.length_cons, List.length_append] at enough ⊢
        omega
      obtain ⟨left, filled, added, roomLeft, full⟩ := body.fill_append empty header new
        (by simpa using keys _ List.mem_cons_self) text room
      rw [added]
      obtain ⟨final, finished, content⟩ := inductionHypothesis full
        (by simpa [names] using distinct)
        (fun s member => keys s (List.mem_cons_of_mem _ member)) roomLeft
      exact ⟨final, finished, by simp [content, tables]⟩

theorem return_not_mem_writeKey (k : Text) : '\r' ∉ writeKey k := by
  unfold writeKey
  split
  · rename_i bare
    simp only [Bool.and_eq_true, List.all_eq_true] at bare
    exact fun member => absurd (bare.2 _ member) (by decide)
  · exact return_not_mem_writeString k

theorem Lines.clean {entries : Entries} {lines : Text} (body : Lines entries lines) :
    '\r' ∉ lines := by
  induction body with
  | nil => simp
  | cons spelt more inductionHypothesis =>
    simp [return_not_mem_writeKey, spelt.clean, inductionHypothesis]

theorem Sections.clean {started : Bool} {sections : List (Text × Entries)} {text : Text}
    (written : Sections started sections text) : '\r' ∉ text := by
  induction written with
  | nil started => simp
  | @cons started name lines text entries sections body more inductionHypothesis =>
    have blank : '\r' ∉ blankLine started := by cases started <;> decide
    simp [blank, return_not_mem_writeKey, body.clean, inductionHypothesis]

/-- Without carriage returns there are no line ends to join. -/
theorem joinLineEnds_of_clean {t : Text} (clean : '\r' ∉ t) : Text.joinLineEnds t = t := by
  induction t with
  | nil => rfl
  | cons c t inductionHypothesis =>
    rw [List.mem_cons, not_or] at clean
    rw [Text.joinLineEnds, inductionHypothesis clean.2]
    exact fun _ same _ => clean.1 same.symm

/-- A text of sections is read as these sections. -/
theorem Sections.read_eq {sections : List (Text × Entries)} {text : Text}
    (written : Sections false sections text) (distinct : (sections.map Prod.fst).Nodup)
    (keys : ∀ s ∈ sections, (names s.2).Nodup) : read text = .ok (tables sections) := by
  have empty : Draft.Holds {} [] := ⟨rfl, rfl, by simp, by simp⟩
  obtain ⟨d, filled, entries⟩ := written.fill_eq empty (by simpa [names] using distinct) keys
    (Nat.lt_succ_self _)
  rw [read, joinLineEnds_of_clean written.clean, filled]
  simp [entries, bind, Except.bind]

/-! ### Writing -/

namespace Output

@[simp] theorem text_andThen (text : Text) (next : Output) :
    andThen { text } next = { text := text ++ next.text, fault := next.fault } := rfl

theorem fault_andThen {first next : Output} {fault : Fault} (ended : first.fault = some fault) :
    (first.andThen next).fault = some fault := by
  rw [andThen, ended]
  exact ended

/-- Nothing in front of what is written. -/
theorem nil_andThen (next : Output) : andThen { text := [] } next = next := rfl

end Output

/-- A value that can be written, but perhaps for the digits of a whole number. -/
def StorableButDigits (v : Value) : Prop := Storable v ∨ ∃ n, v = .int n

/-- Such a value is written, or refused for its digits. -/
theorem StorableButDigits.writeValue_cases {v : Value} (typed : StorableButDigits v) :
    (Storable v ∧ ∃ text, writeValue 0 v = .ok text ∧ Spells text v) ∨
      ¬ Storable v ∧ writeValue 0 v = .error .tooLongNumber := by
  rcases typed with storable | ⟨n, rfl⟩
  · exact .inl ⟨storable, storable.spells_writeValue 0⟩
  · cases writable : Text.isWritable n with
    | true =>
      have storable : Storable (.int n) := .int ((Text.isWritable_iff n).mp writable)
      exact .inl ⟨storable, storable.spells_writeValue 0⟩
    | false =>
      refine .inr ⟨?_, by rw [writeValue, Text.writeInt_of_unwritable writable]⟩
      rintro (_ | short)
      rw [← Text.isWritable_iff, writable] at short
      cases short

theorem StorableButDigits.hasSections_eq {v : Value} (typed : StorableButDigits v) :
    hasSections v = .ok false := by
  rcases typed with storable | ⟨n, rfl⟩
  · exact hasSections_of_storable storable
  · rfl

section Entries

variable {entries : Entries} (typed : ∀ e ∈ entries, StorableButDigits e.2)

include typed

theorem plainEntries_eq : plainEntries entries = .ok (entries, false) := by
  induction entries with
  | nil => rfl
  | cons entry entries inductionHypothesis =>
    obtain ⟨first, rest⟩ := List.forall_mem_cons.mp typed
    simp [plainEntries, first.hasSections_eq, inductionHypothesis rest, bind, Except.bind]

/-- The entries of a section are written on lines, up to one with too many digits. -/
theorem writeLines_cases :
    ((∀ e ∈ entries, Storable e.2) ∧
        ∃ lines, writeLines entries = { text := lines } ∧ Lines entries lines) ∨
      (¬ ∀ e ∈ entries, Storable e.2) ∧ (writeLines entries).fault = some .tooLongNumber := by
  induction entries with
  | nil => exact .inl ⟨by simp, [], rfl, .nil⟩
  | cons entry entries inductionHypothesis =>
    obtain ⟨k, v⟩ := entry
    obtain ⟨first, rest⟩ := List.forall_mem_cons.mp typed
    rw [List.forall_mem_cons, writeLines]
    rcases first.writeValue_cases with ⟨storable, text, written, spelt⟩ | ⟨long, refused⟩
    · simp only [written, Except.map, Output.piece, Output.text_andThen]
      rcases inductionHypothesis rest with ⟨all, lines, more, body⟩ | ⟨longer, fault⟩
      · refine .inl ⟨⟨storable, all⟩, _, ?_, .cons spelt body⟩
        simp [more]
      · exact .inr ⟨fun both => longer both.2, fault⟩
    · refine .inr ⟨fun both => long both.1, ?_⟩
      simp only [refused, Except.map, Output.piece]
      exact Output.fault_andThen rfl

/-- Entries that take a line have no sections. -/
theorem writeSections_entries (name : Text) (started : Bool) :
    writeSections name started entries = { text := [] } := by
  induction entries with
  | nil => rw [writeSections]
  | cons entry entries inductionHypothesis =>
    obtain ⟨k, v⟩ := entry
    obtain ⟨first, rest⟩ := List.forall_mem_cons.mp typed
    have rest := inductionHypothesis rest
    have own : hasSections v = .ok false := first.hasSections_eq
    cases v with
    | table entries => cases own
    | array items => simp only [writeSections, own, rest]
    | _ => simp only [writeSections, rest]

/-- A section is opened by its header, and its lines follow. -/
theorem writeOpening_eq (name : Text) :
    writeOpening (writeKey name) false entries =
      Output.andThen { text := '[' :: writeKey name ++ [']', '\n'] } (writeLines entries) := by
  obtain ⟨c, more, starts, _⟩ := writeKey_starts name
  rw [writeOpening, plainEntries_eq typed]
  simp [writeHeader, starts]

/-- A table is written as a section, and the next ones follow. -/
theorem writeSections_tables_cons (name : Text) (started : Bool)
    (sections : List (Text × Entries)) :
    writeSections [] started (tables ((name, entries) :: sections)) =
      Output.andThen { text := blankLine started }
        ((Output.andThen { text := '[' :: writeKey name ++ [']', '\n'] }
          (writeLines entries)).andThen (writeSections [] true (tables sections))) := by
  simp only [tables, List.map_cons, writeSections, sectionName, List.isEmpty_nil, if_true,
    writeOpening_eq typed, writeSections_entries typed (writeKey name), Output.nil_andThen]

end Entries

/-- Tables are written as sections, up to an entry with too many digits. -/
theorem writeSections_cases {sections : List (Text × Entries)}
    (typed : ∀ s ∈ sections, ∀ e ∈ s.2, StorableButDigits e.2) (started : Bool) :
    ((∀ s ∈ sections, ∀ e ∈ s.2, Storable e.2) ∧
        ∃ text, writeSections [] started (tables sections) = { text } ∧
          Sections started sections text) ∨
      (¬ ∀ s ∈ sections, ∀ e ∈ s.2, Storable e.2) ∧
        (writeSections [] started (tables sections)).fault = some .tooLongNumber := by
  induction sections generalizing started with
  | nil => exact .inl ⟨by simp, [], by rw [tables, List.map_nil, writeSections], .nil started⟩
  | cons s sections inductionHypothesis =>
    obtain ⟨name, entries⟩ := s
    obtain ⟨own, others⟩ := List.forall_mem_cons.mp typed
    rw [List.forall_mem_cons, writeSections_tables_cons own]
    rcases writeLines_cases own with ⟨storable, lines, written, body⟩ | ⟨long, fault⟩
    · rw [written]
      rcases inductionHypothesis others true with ⟨all, text, rest, more⟩ | ⟨longer, fault⟩
      · refine .inl ⟨⟨storable, all⟩, _, ?_, .cons body more⟩
        simp [rest]
      · exact .inr ⟨fun both => longer both.2, fault⟩
    · refine .inr ⟨fun both => long both.1, ?_⟩
      rw [Output.text_andThen, Output.text_andThen]
      exact Output.fault_andThen fault

/-- Before the sections of a document of tables nothing is written. -/
theorem write_tables (sections : List (Text × Entries)) :
    write (tables sections) = writeSections [] false (tables sections) := by
  have plain : ∃ others, plainEntries (tables sections) = .ok ([], others) := by
    induction sections with
    | nil => exact ⟨false, rfl⟩
    | cons s sections inductionHypothesis =>
      obtain ⟨others, written⟩ := inductionHypothesis
      rw [tables] at written
      exact ⟨true, by simp [tables, plainEntries, hasSections, written, bind, Except.bind]⟩
  obtain ⟨others, written⟩ := plain
  have opening : writeOpening [] false (tables sections) = { text := [] } := by
    simp [writeOpening, written, writeHeader, writeLines]
  rw [write, opening, Output.nil_andThen]
  rfl

/-- A document of tables is written as a whole and read back, or it ends at a whole number with too
many digits. -/
theorem write_tables_cases {sections : List (Text × Entries)}
    (typed : ∀ s ∈ sections, ∀ e ∈ s.2, StorableButDigits e.2)
    (distinct : (sections.map Prod.fst).Nodup) (keys : ∀ s ∈ sections, (names s.2).Nodup) :
    ((∀ s ∈ sections, ∀ e ∈ s.2, Storable e.2) ∧
        ∃ text, write (tables sections) = { text } ∧ read text = .ok (tables sections)) ∨
      (¬ ∀ s ∈ sections, ∀ e ∈ s.2, Storable e.2) ∧
        (write (tables sections)).fault = some .tooLongNumber := by
  rw [write_tables]
  rcases writeSections_cases typed false with ⟨storable, text, written, form⟩ | refused
  · exact .inl ⟨storable, text, written, form.read_eq distinct keys⟩
  · exact .inr refused

end Emend.Document
