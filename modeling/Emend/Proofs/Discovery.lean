import Emend.Proofs.DirectoryListings

/-!
# What a query discovers

In a tree without links a query for a directory and all directories below it lists
the files below the directory, each once and in the order of their paths. The order
in which directories list their entries does not matter.

The walk goes down by paths and not by locations, and a directory that cannot be listed
is passed over with all that is below it: one whose path is too long, one that may not be
read, and one in a directory that may not be searched. So a file is listed exactly if none
of these is on the way to it; its own path may be longer and its own permissions do not
matter. Each name makes a path longer, and for this reason the bound on the way down is
never reached.
-/

namespace Emend

namespace Path

theorem byteLength_append (s t : Text) : byteLength (s ++ t) = byteLength s + byteLength t := by
  have shifted (start : Nat) :
      t.foldl (fun n c => n + c.utf8Size) start = start + byteLength t := by
    rw [byteLength]
    induction t generalizing start with
    | nil => rfl
    | cons c rest inductionHypothesis =>
      rw [List.foldl_cons, List.foldl_cons, inductionHypothesis, inductionHypothesis (0 + _)]
      omega
  rw [byteLength, List.foldl_append, shifted]
  rfl

/-- A text has at least one byte for each character. -/
theorem length_le_byteLength (t : Text) : t.length ≤ byteLength t := by
  induction t with
  | nil => exact Nat.le_refl _
  | cons c rest inductionHypothesis =>
    have first : byteLength [c] = c.utf8Size := Nat.zero_add _
    have filled := c.utf8Size_pos
    rw [← List.singleton_append, byteLength_append, first, List.length_append,
      List.length_singleton]
    omega

/-- The path of names below a directory that has a path. -/
def below (path : Text) (names : List Text) : Text := names.foldl join path

section Names

variable {path name : Text} {names : List Text}

theorem below_cons (path name : Text) (names : List Text) :
    below path (name :: names) = below (join path name) names := rfl

/-- A name makes a path longer. -/
theorem byteLength_join (named : isName name = true) (path : Text) :
    byteLength path < byteLength (join path name) := by
  obtain ⟨counts, -, slashless, -⟩ := (isName_iff name).mp named
  have relative : name.head? ≠ some '/' := fun first => slashless (List.mem_of_head? first)
  have filled : 0 < name.length := by
    apply List.length_pos_iff.mpr
    rintro rfl
    cases counts
  have bytes := length_le_byteLength name
  rw [join, if_neg relative]
  split
  · rw [byteLength_append]
    omega
  · have slash : byteLength ('/' :: name) = byteLength ['/'] + byteLength name :=
      byteLength_append ['/'] name
    rw [byteLength_append, slash]
    omega

/-- Each of some names makes a path longer. -/
theorem byteLength_below (named : ∀ name ∈ names, isName name = true) (path : Text) :
    byteLength path + names.length ≤ byteLength (below path names) := by
  induction names generalizing path with
  | nil => exact Nat.le_refl _
  | cons name rest inductionHypothesis =>
    have first := byteLength_join (named name List.mem_cons_self) path
    have further := inductionHypothesis (fun n member => named n (List.mem_cons_of_mem _ member))
      (join path name)
    rw [below_cons, List.length_cons]
    omega

theorem parts_below (named : ∀ name ∈ names, isName name = true) (path : Text) :
    parts (below path names) = parts path ++ names := by
  induction names generalizing path with
  | nil => rw [below, List.foldl_nil, List.append_nil]
  | cons name rest inductionHypothesis =>
    rw [below_cons, inductionHypothesis fun n member => named n (List.mem_cons_of_mem _ member),
      parts_join (named name List.mem_cons_self), List.append_assoc, List.singleton_append]

theorem isLong_eq_false_iff (path : Text) : isLong path = false ↔ byteLength path ≤ maxPath := by
  rw [isLong, decide_eq_false_iff_not, Nat.not_lt]

/-- What a path that is not too long starts with is not too long either. -/
theorem isLong_of_below (named : ∀ name ∈ names, isName name = true)
    (short : isLong (below path names) = false) : isLong path = false := by
  have longer := byteLength_below named path
  rw [isLong_eq_false_iff] at short ⊢
  omega

end Names

end Path

namespace Tree

variable {t : Tree}

/-- A slash after the path of a directory does not matter. -/
theorem Leads.of_append_empty {names : List Text} {directory location : Location} {mode : Nat}
    (way : Leads t directory (names ++ [[]]) location (.directory mode)) :
    Leads t directory names location (.directory mode) := by
  generalize whole : names ++ [[]] = all at way
  generalize reached : Entry.directory mode = entry at way
  induction way generalizing names with
  | here found => simp at whole
  | empty way inductionHypothesis =>
    cases names with
    | nil =>
      cases (List.cons.inj whole).2
      exact way
    | cons first names =>
      obtain ⟨rfl, rest⟩ := List.cons.inj whole
      exact .empty (inductionHypothesis rest reached)
  | point searchable way inductionHypothesis =>
    obtain ⟨names, rfl, rest⟩ := (List.append_eq_cons_iff.mp whole).resolve_left (by simp)
    exact .point searchable (inductionHypothesis rest.symm reached)
  | up searchable way inductionHypothesis =>
    obtain ⟨names, rfl, rest⟩ := (List.append_eq_cons_iff.mp whole).resolve_left (by simp)
    exact .up searchable (inductionHypothesis rest.symm reached)
  | down plain searchable next way inductionHypothesis =>
    obtain ⟨names, rfl, rest⟩ :=
      (List.append_eq_cons_iff.mp whole).resolve_left (by simp [plain.ne_nil])
    exact .down plain searchable next (inductionHypothesis rest.symm reached)
  | file plain searchable last => cases reached

/-- A path that leads anywhere is not too long and not empty. -/
theorem of_lookup {path : Text} {location : Location} {entry : Entry}
    (found : t.lookup path = some (location, entry)) :
    Path.isLong path = false ∧ path ≠ [] := by
  rw [lookup_eq_some_iff, resolve] at found
  split at found
  · cases found
  · rename_i short
    split at found
    · cases found
    · rename_i proper
      exact ⟨Bool.not_eq_true _ ▸ short, proper⟩

/-- Without links, a path leads where its names do, the silent ones included. -/
theorem leads_of_lookup (linkFree : t.LinkFree) {path : Text} {location : Location} {entry : Entry}
    (found : t.lookup path = some (location, entry)) :
    Leads t (Path.base t.here path) (path.splitAt '/') location entry := by
  obtain ⟨short, proper⟩ := of_lookup found
  rw [lookup_eq_some_iff, resolve, if_neg (by simp [short]), if_neg proper] at found
  exact (resolveFrom_eq_found_iff linkFree _ _ location _ entry).mp found

/-- Without links, the path of a directory that may be searched and the name of one in it lead to
the latter, unless they are too long together. -/
theorem lookup_join (linkFree : t.LinkFree) {path name : Text} {directory : Location}
    {mode access : Nat} (way : t.lookup path = some (directory, .directory mode))
    (named : Path.isName name = true)
    (held : t.entryAt (directory ++ [name]) = some (.directory access))
    (searchable : t.Searchable directory) (short : Path.isLong (Path.join path name) = false) :
    t.lookup (Path.join path name) = some (directory ++ [name], .directory access) := by
  obtain ⟨-, -, slashless, -⟩ := (Path.isName_iff name).mp named
  have relative : name.head? ≠ some '/' := fun slash => slashless (List.mem_of_head? slash)
  have last := Text.splitAt_of_not_mem slashless
  have proper := (of_lookup way).2
  -- What the path is cut into leads to the directory, and the name comes after it.
  obtain ⟨names, cut, outer⟩ : ∃ names, (Path.join path name).splitAt '/' = names ++ [name] ∧
      Leads t (Path.base t.here path) names directory (.directory mode) := by
    have whole := leads_of_lookup linkFree way
    rw [Path.join, if_neg relative]
    split
    · rename_i bare
      have slash : path.getLast? = some '/' := by simpa [proper] using bare
      obtain ⟨outer, rfl⟩ := List.getLast?_eq_some_iff.mp slash
      rw [Text.splitAt_append] at whole
      refine ⟨Text.splitAt '/' outer, ?_, whole.of_append_empty⟩
      rw [List.append_assoc, List.singleton_append, Text.splitAt_append, last]
    · exact ⟨path.splitAt '/', by rw [Text.splitAt_append, last], whole⟩
  have filled : Path.join path name ≠ [] := by
    intro empty
    have parts := Path.parts_join named path
    rw [empty] at parts
    simp [Path.parts, Text.splitAt, Path.isIdle] at parts
  rw [lookup_eq_some_iff, resolve, if_neg (by simp [short]), if_neg filled, cut,
    Path.base_join named]
  change t.resolveFrom true _ _ _ = _
  rw [outer.resolveFrom_append, resolveFrom_eq_found_iff linkFree]
  exact .down (plain_of_isName named) searchable held (.here held)

/-- A directory whose entries are found by their paths may be searched. -/
theorem searchable_of_lookup_join (linkFree : t.LinkFree) {path name : Text}
    {directory location : Location} {mode : Nat} {entry : Entry}
    (way : t.lookup path = some (directory, .directory mode)) (named : Path.isName name = true)
    (found : t.lookup (Path.join path name) = some (location, entry)) : t.Searchable directory := by
  have outer := leads_of_resolve linkFree ((lookup_eq_some_iff ..).mp way)
  have whole := leads_of_resolve linkFree ((lookup_eq_some_iff ..).mp found)
  rw [Path.base_join named, Path.parts_join named] at whole
  have plain := plain_of_isName named
  cases outer.of_append linkFree whole with
  | empty => exact absurd rfl plain.ne_nil
  | point searchable => exact searchable
  | up searchable => exact searchable
  | down _ searchable => exact searchable
  | file _ searchable => exact searchable

/-- A regular file lies below a directory, with names that lead to it over directories. -/
structure FileBelow (t : Tree) (directory : Location) (names : List Text) : Prop where
  proper : names ≠ []
  file : ∃ bytes mode, t.entryAt (directory ++ names) = some (.file bytes mode)
  between : ∀ outer inner, names = outer ++ inner → outer ≠ [] → inner ≠ [] →
    ∃ mode, t.entryAt (directory ++ outer) = some (.directory mode)

/-- A walk comes from a directory to the one that holds the last of some names: every directory on
the way may be read, and those above the last one may be searched. -/
structure Passable (t : Tree) (directory : Location) (names : List Text) : Prop where
  readable : ∀ outer inner, names = outer ++ inner → inner ≠ [] →
    t.barrier (directory ++ outer) .read = none
  searchable : ∀ outer inner, names = outer ++ inner → 2 ≤ inner.length →
    t.barrier (directory ++ outer) .search = none

namespace Passable

variable {directory : Location} {name : Text} {names : List Text}

theorem here (passable : t.Passable directory (name :: names)) :
    t.barrier directory .read = none := by
  simpa using passable.readable [] (name :: names) rfl (by simp)

theorem single (readable : t.barrier directory .read = none) : t.Passable directory [name] where
  readable := by
    intro outer inner split some
    rcases List.append_eq_singleton_iff.mp split.symm with ⟨rfl, -⟩ | ⟨-, rfl⟩
    · rwa [List.append_nil]
    · exact absurd rfl some
  searchable := by
    intro outer inner split two
    have lengths := congrArg List.length split
    simp only [List.length_append, List.length_singleton] at lengths
    omega

theorem cons_iff (further : names ≠ []) :
    t.Passable directory (name :: names) ↔
      t.barrier directory .read = none ∧ t.barrier directory .search = none ∧
        t.Passable (directory ++ [name]) names := by
  have shift (list : List Text) : directory ++ name :: list = (directory ++ [name]) ++ list := by
    simp
  constructor
  · intro passable
    refine ⟨passable.here, ?_, ?_, ?_⟩
    · have two : 2 ≤ (name :: names).length := Nat.succ_le_succ (List.length_pos_iff.mpr further)
      simpa using passable.searchable [] (name :: names) rfl two
    · intro outer inner split some
      rw [← shift]
      exact passable.readable (name :: outer) inner (by rw [split]; rfl) some
    · intro outer inner split two
      rw [← shift]
      exact passable.searchable (name :: outer) inner (by rw [split]; rfl) two
  · rintro ⟨readable, searchable, passable⟩
    constructor
    · intro outer inner split some
      rcases List.append_eq_cons_iff.mp split.symm with ⟨rfl, -⟩ | ⟨outer, rfl, rest⟩
      · rwa [List.append_nil]
      · rw [shift]
        exact passable.readable outer inner rest some
    · intro outer inner split two
      rcases List.append_eq_cons_iff.mp split.symm with ⟨rfl, -⟩ | ⟨outer, rfl, rest⟩
      · rwa [List.append_nil]
      · rw [shift]
        exact passable.searchable outer inner rest two

end Passable

namespace FileBelow

variable {directory : Location} {name : Text} {names : List Text}

theorem single_iff :
    t.FileBelow directory [name] ↔
      ∃ bytes mode, t.entryAt (directory ++ [name]) = some (.file bytes mode) := by
  constructor
  · intro lies
    exact lies.file
  · intro file
    refine ⟨List.cons_ne_nil _ _, file, ?_⟩
    intro outer inner split begun rest
    have lengths := congrArg List.length split
    have first := List.length_pos_iff.mpr begun
    have second := List.length_pos_iff.mpr rest
    simp only [List.length_append, List.length_singleton] at lengths
    omega

theorem cons_iff (further : names ≠ []) :
    t.FileBelow directory (name :: names) ↔
      (∃ mode, t.entryAt (directory ++ [name]) = some (.directory mode)) ∧
        t.FileBelow (directory ++ [name]) names := by
  have shift (list : List Text) : directory ++ name :: list = (directory ++ [name]) ++ list := by
    simp
  constructor
  · rintro ⟨-, file, between⟩
    rw [shift] at file
    refine ⟨between [name] names rfl (by simp) further, further, file, ?_⟩
    intro outer inner split begun rest
    have lies := between (name :: outer) inner (by rw [split]; rfl) (by simp) rest
    rwa [shift] at lies
  · rintro ⟨first, -, file, between⟩
    rw [← shift] at file
    refine ⟨List.cons_ne_nil _ _, file, ?_⟩
    intro outer inner split begun rest
    obtain ⟨head, outer, rfl⟩ := List.exists_cons_of_ne_nil begun
    obtain ⟨rfl, tail⟩ := List.cons.inj split
    by_cases empty : outer = []
    · rw [empty]
      exact first
    · rw [shift]
      exact between outer inner tail empty rest

/-- The names on the way to a file are names of entries. -/
theorem isName (formed : t.WellFormed) (lies : t.FileBelow directory names) :
    ∀ name ∈ names, Path.isName name = true := by
  intro name member
  obtain ⟨bytes, mode, held⟩ := lies.file
  have proper : directory ++ names ≠ [] := by simp [lies.proper]
  exact formed.named _ (mem_of_entryAt proper held) name (List.mem_append_right _ member)

end FileBelow

end Tree

namespace Query

section Walk

variable {t : Tree} {followLinks : Bool}

/-- One step of a walk without links: a file of the directory is found, a directory in it walked
on. -/
theorem mem_deepPaths_linkFree (formed : t.WellFormed) (linkFree : t.LinkFree) {depth : Nat}
    {path found : Text} {directory : Location} {mode : Nat}
    (way : t.lookup path = some (directory, .directory mode)) :
    found ∈ deepPaths t followLinks (depth + 1) path ↔
      t.barrier directory .read = none ∧ ∃ name,
        (∃ bytes mode, t.entryAt (directory ++ [name]) = some (.file bytes mode)) ∧
            found = Path.join path name ∨
          ∃ access, t.entryAt (directory ++ [name]) = some (.directory access) ∧
            found ∈ deepPaths t followLinks depth (Path.join path name) := by
  have there := Tree.entryAt_of_lookup linkFree way
  have readable : t.barrier directory .read = none ↔ t.grants mode .read = true := by
    simp [Tree.barrier_eq_none_iff, there]
  rw [mem_deepPaths_succ formed way, ← readable]
  constructor
  · rintro ⟨readable, name, entry, held, piece⟩
    refine ⟨readable, name, ?_⟩
    cases entry with
    | link link => exact absurd held (linkFree _ _)
    | file bytes mode =>
      rcases piece with ⟨-, same⟩ | ⟨impossible, -⟩
      · exact .inl ⟨⟨bytes, mode, held⟩, same⟩
      · cases impossible
    | directory access =>
      rcases piece with ⟨impossible, -⟩ | ⟨-, -, piece⟩
      · cases impossible
      · exact .inr ⟨access, held, piece⟩
  · rintro ⟨readable, name, ⟨⟨bytes, mode, held⟩, same⟩ | ⟨access, held, piece⟩⟩
    · exact ⟨readable, name, _, held, .inl ⟨rfl, same⟩⟩
    · exact ⟨readable, name, _, held, .inr ⟨rfl, Bool.or_true _, piece⟩⟩

/-- A walk that finds something starts at a directory. -/
theorem lookup_of_mem_deepPaths {depth : Nat} {path found : Text}
    (member : found ∈ deepPaths t followLinks depth path) :
    ∃ directory mode, t.lookup path = some (directory, .directory mode) := by
  refine Classical.byContradiction fun missing => ?_
  rw [deepPaths_of_missing fun directory mode reached => missing ⟨directory, mode, reached⟩]
    at member
  cases member

/-- Without links, a walk finds the files below a directory to whose directories it comes by paths
that are not too long, as far as its depth reaches. The induction is on the depth: what is found
comes of one entry of the directory, and below a directory in it the walk goes on. -/
theorem mem_deepPaths_iff (formed : t.WellFormed) (linkFree : t.LinkFree) {depth : Nat}
    {path found : Text} {directory : Location} {mode : Nat}
    (way : t.lookup path = some (directory, .directory mode)) :
    found ∈ deepPaths t followLinks depth path ↔
      ∃ names, names.length ≤ depth ∧ t.FileBelow directory names ∧
        t.Passable directory names ∧ found = Path.below path names ∧
        Path.isLong (Path.below path names.dropLast) = false := by
  induction depth generalizing path directory mode with
  | zero =>
    constructor
    · intro member
      cases member
    · rintro ⟨names, short, lies, -⟩
      exact absurd (List.eq_nil_of_length_eq_zero (Nat.le_zero.mp short)) lies.proper
  | succ depth inductionHypothesis =>
    rw [mem_deepPaths_linkFree formed linkFree way]
    constructor
    · rintro ⟨readable, name, ⟨⟨bytes, mode, held⟩, rfl⟩ | ⟨access, held, piece⟩⟩
      · exact ⟨[name], by simp, Tree.FileBelow.single_iff.mpr ⟨bytes, mode, held⟩,
          .single readable, rfl, (Tree.of_lookup way).1⟩
      · have named := formed.child_isName (formed.mem_children_iff.mpr held)
        obtain ⟨location, mode, reached⟩ := lookup_of_mem_deepPaths piece
        have searchable := Tree.searchable_of_lookup_join linkFree way named reached
        have inner := Tree.lookup_join linkFree way named held searchable
          (Tree.of_lookup reached).1
        obtain ⟨names, bounded, lies, passable, rfl, allowed⟩ :=
          (inductionHypothesis inner).mp piece
        refine ⟨name :: names, Nat.succ_le_succ bounded,
          (Tree.FileBelow.cons_iff lies.proper).mpr ⟨⟨access, held⟩, lies⟩,
          (Tree.Passable.cons_iff lies.proper).mpr ⟨readable, searchable, passable⟩, rfl, ?_⟩
        rw [List.dropLast_cons_of_ne_nil lies.proper]
        exact allowed
    · rintro ⟨names, bounded, lies, passable, rfl, allowed⟩
      obtain ⟨name, rest, rfl⟩ := List.exists_cons_of_ne_nil lies.proper
      have allNamed := lies.isName formed
      refine ⟨passable.here, name, ?_⟩
      by_cases further : rest = []
      · subst further
        exact .inl ⟨lies.file, rfl⟩
      · obtain ⟨⟨access, held⟩, lies⟩ := (Tree.FileBelow.cons_iff further).mp lies
        obtain ⟨-, searchable, passable⟩ := (Tree.Passable.cons_iff further).mp passable
        rw [List.dropLast_cons_of_ne_nil further, Path.below_cons] at allowed
        have short : Path.isLong (Path.join path name) = false := by
          refine Path.isLong_of_below ?_ allowed
          intro other member
          exact allNamed other (List.mem_cons_of_mem _ (List.dropLast_subset _ member))
        have inner := Tree.lookup_join linkFree way (allNamed name List.mem_cons_self) held
          searchable short
        refine .inr ⟨access, held, (inductionHypothesis inner).mpr ?_⟩
        exact ⟨rest, Nat.le_of_succ_le_succ bounded, lies, passable, rfl, allowed⟩

/-- The depth of a walk is never reached: the path of a file that deep would be too long. -/
theorem mem_walk_iff (formed : t.WellFormed) (linkFree : t.LinkFree) {target found : Text}
    {directory : Location} {mode : Nat}
    (way : t.lookup target = some (directory, .directory mode)) :
    found ∈ deepPaths t followLinks Path.maxPath target ↔
      ∃ names, t.FileBelow directory names ∧ t.Passable directory names ∧
        found = Path.below target names ∧
        Path.isLong (Path.below target names.dropLast) = false := by
  rw [mem_deepPaths_iff formed linkFree way]
  constructor
  · rintro ⟨names, -, discovered⟩
    exact ⟨names, discovered⟩
  · rintro ⟨names, lies, passable, same, short⟩
    refine ⟨names, ?_, lies, passable, same, short⟩
    have named : ∀ name ∈ names.dropLast, Path.isName name = true :=
      fun name member => lies.isName formed name (List.dropLast_subset _ member)
    have longer := Path.byteLength_below named target
    have filled := List.length_pos_iff.mpr (Tree.of_lookup way).2
    have bytes := Path.length_le_byteLength target
    rw [Path.isLong_eq_false_iff] at short
    rw [List.length_dropLast] at longer
    omega

end Walk

end Query

namespace Text

/-- The order of texts by their code points, without ties. -/
def Before (s t : Text) : Prop := List.Lex (fun c d => c.toNat < d.toNat) s t

/-- Texts are in order if they are the same or one is before the other. -/
theorem precedes_iff (s t : Text) : precedes s t = true ↔ s = t ∨ s.Before t := by
  induction s generalizing t with
  | nil =>
    cases t with
    | nil => exact iff_of_true rfl (.inl rfl)
    | cons d t => exact iff_of_true rfl (.inr .nil)
  | cons c s inductionHypothesis =>
    cases t with
    | nil =>
      refine iff_of_false (by simp [precedes]) ?_
      rintro (same | before)
      · cases same
      · cases before
    | cons d t =>
      rw [precedes, Bool.or_eq_true, Bool.and_eq_true, decide_eq_true_eq, decide_eq_true_eq,
        inductionHypothesis, Char.lt_def, UInt32.lt_iff_toNat_lt]
      constructor
      · rintro (less | ⟨rfl, rfl | before⟩)
        · exact .inr (.rel less)
        · exact .inl rfl
        · exact .inr (.cons before)
      · rintro (same | before)
        · obtain ⟨rfl, rfl⟩ := List.cons.inj same
          exact .inr ⟨rfl, .inl rfl⟩
        · cases before with
          | rel less => exact .inl less
          | cons before => exact .inr ⟨rfl, .inr before⟩

theorem precedes_total (s t : Text) : (precedes s t || precedes t s) = true := by
  induction s generalizing t with
  | nil => rfl
  | cons c s inductionHypothesis =>
    cases t with
    | nil => rfl
    | cons d t =>
      have further := inductionHypothesis t
      simp only [precedes, Bool.or_eq_true, Bool.and_eq_true, decide_eq_true_eq, Char.lt_def,
        UInt32.lt_iff_toNat_lt] at further ⊢
      rcases Nat.lt_trichotomy c.val.toNat d.val.toNat with less | same | more
      · exact .inl (.inl less)
      · have equal : c = d := Char.toNat_inj.mp same
        rcases further with first | second
        · exact .inl (.inr ⟨equal, first⟩)
        · exact .inr (.inr ⟨equal.symm, second⟩)
      · exact .inr (.inl more)

theorem Before.trans {s t u : Text} (first : s.Before t) (second : t.Before u) : s.Before u := by
  induction first generalizing u with
  | nil =>
    cases second with
    | rel _ => exact .nil
    | cons _ => exact .nil
  | cons _ inductionHypothesis =>
    cases second with
    | rel less => exact .rel less
    | cons before => exact .cons (inductionHypothesis before)
  | rel less =>
    cases second with
    | rel further => exact .rel (Nat.lt_trans less further)
    | cons _ => exact .rel less

theorem Before.irrefl (s : Text) : ¬ s.Before s := by
  induction s with
  | nil =>
    intro before
    cases before
  | cons c s inductionHypothesis =>
    intro before
    cases before with
    | rel less => exact Nat.lt_irrefl _ less
    | cons before => exact inductionHypothesis before

theorem precedes_trans (s t u : Text) (first : precedes s t = true)
    (second : precedes t u = true) : precedes s u = true := by
  rw [precedes_iff] at first second ⊢
  rcases first with rfl | first
  · exact second
  · rcases second with rfl | second
    · exact .inr first
    · exact .inr (first.trans second)

/-- Sorting different texts puts each before all later ones. -/
theorem pairwise_before_mergeSort {list : List Text} (different : list.Nodup) :
    (list.mergeSort precedes).Pairwise Before := by
  have sorted := List.pairwise_mergeSort precedes_trans precedes_total list
  have distinct : (list.mergeSort precedes).Nodup :=
    (List.mergeSort_perm list precedes).nodup_iff.mpr different
  refine (sorted.and distinct).imp ?_
  rintro s t ⟨before, other⟩
  exact ((precedes_iff s t).mp before).resolve_left other

/-- Lists of different texts with the same members are the same when sorted. -/
theorem mergeSort_eq_of_mem_iff {list other : List Text} (different : list.Nodup)
    (otherDifferent : other.Nodup) (same : ∀ t, t ∈ list ↔ t ∈ other) :
    list.mergeSort precedes = other.mergeSort precedes := by
  have perm : list.Perm other := (List.perm_ext_iff_of_nodup different otherDifferent).mpr same
  have sorted : (list.mergeSort precedes).Perm (other.mergeSort precedes) :=
    ((List.mergeSort_perm list precedes).trans perm).trans (List.mergeSort_perm other precedes).symm
  refine sorted.eq_of_pairwise ?_ (pairwise_before_mergeSort different)
    (pairwise_before_mergeSort otherDifferent)
  intro s t _ _ before after
  exact absurd (before.trans after) (Before.irrefl s)

end Text

namespace Tree

/-- Two trees with the same entries in different orders. -/
structure Reordered (t u : Tree) : Prop where
  perm : u.entries.Perm t.entries
  top : u.top = t.top
  here : u.here = t.here
  privileged : u.privileged = t.privileged

namespace Reordered

variable {t u : Tree}

theorem wellFormed (same : t.Reordered u) (formed : t.WellFormed) : u.WellFormed where
  unique := (same.perm.map Prod.fst).nodup_iff.mpr formed.unique
  named item member := formed.named item (same.perm.mem_iff.mp member)

/-- The order of entries does not matter for what lies at a location. -/
theorem entryAt_eq (same : t.Reordered u) (formed : t.WellFormed) (location : Location) :
    u.entryAt location = t.entryAt location := by
  by_cases proper : location = []
  · rw [proper, entryAt, entryAt, same.top]
  · apply Option.ext
    intro entry
    rw [(same.wellFormed formed).entryAt_eq_some_iff proper, formed.entryAt_eq_some_iff proper,
      same.perm.mem_iff]

theorem sameShape (same : t.Reordered u) (formed : t.WellFormed) : t.SameShape u :=
  ⟨fun location => by rw [same.entryAt_eq formed], same.here.symm, same.privileged.symm⟩

/-- The order of entries does not matter for which files lie below a directory. -/
theorem fileBelow_iff (same : t.Reordered u) (formed : t.WellFormed) (directory : Location)
    (names : List Text) : u.FileBelow directory names ↔ t.FileBelow directory names := by
  have agree := same.entryAt_eq formed
  constructor
  · rintro ⟨proper, file, between⟩
    simp only [agree] at file between
    exact ⟨proper, file, between⟩
  · rintro ⟨proper, file, between⟩
    simp only [← agree] at file between
    exact ⟨proper, file, between⟩

theorem passable_iff (same : t.Reordered u) (formed : t.WellFormed) (directory : Location)
    (names : List Text) : u.Passable directory names ↔ t.Passable directory names := by
  have agree := (same.sameShape formed).barrier
  constructor
  · rintro ⟨readable, searchable⟩
    simp only [← agree] at readable searchable
    exact ⟨readable, searchable⟩
  · rintro ⟨readable, searchable⟩
    simp only [agree] at readable searchable
    exact ⟨readable, searchable⟩

/-- Without links, a path leads to the same directory whatever the order of entries is. -/
theorem lookup_directory (same : t.Reordered u) (formed : t.WellFormed) (linkFree : t.LinkFree)
    {path : Text} {directory : Location} {mode : Nat}
    (way : t.lookup path = some (directory, .directory mode)) :
    u.LinkFree ∧ u.lookup path = some (directory, .directory mode) := by
  have shape := same.sameShape formed
  have held : u.entryAt directory = some (.directory mode) := by
    rw [same.entryAt_eq formed]
    exact entryAt_of_lookup linkFree way
  exact ⟨shape.linkFree linkFree, shape.lookup_eq linkFree way held⟩

end Reordered

end Tree

namespace Query

/-- The paths of a walk in a tree without links, before they are sorted. -/
theorem deep_paths_eq {t : Tree} (formed : t.WellFormed) (linkFree : t.LinkFree) {target : Text}
    {directory : Location} {mode : Nat}
    (way : t.lookup target = some (directory, .directory mode))
    (filter : PathFilter) (globs : List Text) (followLinks : Bool) :
    ∃ kept, (deep target filter globs followLinks).paths t = .ok kept ∧ kept.Nodup ∧
      ∀ path, path ∈ kept ↔
        (∃ names, t.FileBelow directory names ∧ t.Passable directory names ∧
          path = Path.below target names ∧
          Path.isLong (Path.below target names.dropLast) = false) ∧ Wanted filter globs path := by
  obtain ⟨kept, listed, within, keptIff⟩ :=
    accepted_texts filter globs (deepPaths t followLinks Path.maxPath target)
  refine ⟨kept, listed, ?_, ?_⟩
  · have different := deepPaths_pairwise formed followLinks Path.maxPath target
    refine (different.imp ?_).sublist within
    intro p q apart same
    exact apart (congrArg Path.parts same)
  · intro path
    rw [keptIff, mem_walk_iff formed linkFree way]

/-- Discovery in a tree without links is exact, without duplicates and independent of the order in
which directories list their entries.

The sorted paths are the same for every order of the entries, they increase strictly
by code points, and they are the paths of the files below the target that no glob
covers and that the filter lets through, as far as the path of the directory that
holds the file is not too long and the directories on the way may be read and searched. -/
theorem discovery_exact {t u : Tree} (formed : t.WellFormed) (linkFree : t.LinkFree)
    (same : t.Reordered u) {target : Text} (there : t.isDirectory target = true)
    (filter : PathFilter) (globs : List Text) (followLinks : Bool) :
    ∃ directory mode paths, t.lookup target = some (directory, .directory mode) ∧
      (deep target filter globs followLinks).sortedPaths t = .ok paths ∧
      (deep target filter globs followLinks).sortedPaths u = .ok paths ∧
      paths.Pairwise Text.Before ∧
      ∀ path, path ∈ paths ↔
        (∃ names, t.FileBelow directory names ∧ t.Passable directory names ∧
          path = Path.below target names ∧
          Path.isLong (Path.below target names.dropLast) = false) ∧ Wanted filter globs path := by
  obtain ⟨directory, mode, way⟩ := Tree.isDirectory_iff.mp there
  obtain ⟨otherFree, otherWay⟩ := same.lookup_directory formed linkFree way
  obtain ⟨kept, listed, different, keptIff⟩ :=
    deep_paths_eq formed linkFree way filter globs followLinks
  obtain ⟨others, otherListed, otherDifferent, othersIff⟩ :=
    deep_paths_eq (same.wellFormed formed) otherFree otherWay filter globs followLinks
  have members : ∀ path, path ∈ others ↔ path ∈ kept := by
    intro path
    rw [othersIff, keptIff]
    simp only [same.fileBelow_iff formed, same.passable_iff formed]
  refine ⟨directory, mode, kept.mergeSort Text.precedes, way, ?_, ?_,
    Text.pairwise_before_mergeSort different, ?_⟩
  · rw [sortedPaths, listed]
    rfl
  · rw [sortedPaths, otherListed, ← Text.mergeSort_eq_of_mem_iff otherDifferent different members]
    rfl
  · intro path
    rw [List.mem_mergeSort, keptIff]

/-- A directory with a file and another directory, which holds a file too. -/
def nestedTree : Tree where
  entries := [([['d']], .directory Tree.directoryMode),
    ([['d'], ['s', 'u', 'b']], .directory Tree.directoryMode),
    ([['d'], ['s', 'u', 'b'], ['f']], .file [] Tree.fileMode),
    ([['d'], ['g']], .file [] Tree.fileMode)]

theorem nestedTree_file : nestedTree.FileBelow [['d']] [['s', 'u', 'b'], ['f']] := by
  rw [Tree.FileBelow.cons_iff (by simp), Tree.FileBelow.single_iff]
  exact ⟨⟨Tree.directoryMode, rfl⟩, [], Tree.fileMode, rfl⟩

/-- The file further down is discovered in both orders of the entries, and the file that a glob
covers is not. -/
theorem nested_discovery_exact :
    let reversed : Tree := { nestedTree with entries := nestedTree.entries.reverse }
    (nestedTree.WellFormed ∧ nestedTree.LinkFree ∧ nestedTree.Reordered reversed ∧
      nestedTree.isDirectory ['/', 'd', '/'] = true) ∧
    ∃ paths, (deep ['/', 'd', '/'] .all [['*', 'g']] true).sortedPaths nestedTree = .ok paths ∧
      (deep ['/', 'd', '/'] .all [['*', 'g']] true).sortedPaths reversed = .ok paths ∧
      ['/', 'd', '/', 's', 'u', 'b', '/', 'f'] ∈ paths ∧ ['/', 'd', '/', 'g'] ∉ paths := by
  intro reversed
  have formed : nestedTree.WellFormed := by decide
  have linkFree : nestedTree.LinkFree := by decide
  have same : nestedTree.Reordered reversed := ⟨List.reverse_perm _, rfl, rfl, rfl⟩
  have there : nestedTree.isDirectory ['/', 'd', '/'] = true := by decide
  obtain ⟨directory, mode, paths, way, listed, again, -, each⟩ :=
    discovery_exact formed linkFree same there .all [['*', 'g']] true
  obtain rfl : directory = [['d']] := by
    have found : some (directory, Entry.directory mode) =
        some ([['d']], Entry.directory Tree.directoryMode) := way.symm.trans rfl
    exact congrArg Prod.fst (Option.some.inj found)
  refine ⟨⟨formed, linkFree, same, there⟩, paths, listed, again, ?_, ?_⟩
  · rw [each]
    refine ⟨⟨_, nestedTree_file, ?_, rfl, by decide⟩, ?_, rfl⟩
    · exact (Tree.Passable.cons_iff (by simp)).mpr ⟨by decide, by decide, .single (by decide)⟩
    · decide
  · rw [each]
    rintro ⟨-, wanted⟩
    exact absurd (wanted.uncovered ['*', 'g'] (by decide)).1 (by decide)

/-- A path of a directory with the most bytes but two. -/
def longTarget : Text := (List.replicate 2046 ['.', '/']).flatten ++ ['d']

/-- A file is not discovered if the path of the directory that holds it is too long, although the
file lies below a directory that is there and its path is wanted. -/
theorem long_path_passed_over :
    (nestedTree.WellFormed ∧ nestedTree.LinkFree ∧
      nestedTree.lookup longTarget = some ([['d']], .directory Tree.directoryMode)) ∧
    nestedTree.FileBelow [['d']] [['s', 'u', 'b'], ['f']] ∧
    Wanted .all [] (Path.below longTarget [['s', 'u', 'b'], ['f']]) ∧
    ∃ paths, (deep longTarget .all [] true).sortedPaths nestedTree = .ok paths ∧
      Path.below longTarget [['s', 'u', 'b'], ['f']] ∉ paths := by
  have formed : nestedTree.WellFormed := by decide
  have linkFree : nestedTree.LinkFree := by decide
  have way : nestedTree.lookup longTarget = some ([['d']], .directory Tree.directoryMode) := by
    decide +kernel
  have long : Path.isLong (Path.below longTarget [['s', 'u', 'b']]) = true := by decide +kernel
  obtain ⟨kept, listed, -, keptIff⟩ := deep_paths_eq formed linkFree way .all [] true
  refine ⟨⟨formed, linkFree, way⟩, nestedTree_file, ⟨by simp, rfl⟩, kept.mergeSort Text.precedes,
    ?_, ?_⟩
  · rw [sortedPaths, listed]
    rfl
  · rw [List.mem_mergeSort, keptIff]
    rintro ⟨⟨names, lies, -, same, short⟩, -⟩
    have parts := congrArg Path.parts same
    rw [Path.parts_below (nestedTree_file.isName formed), Path.parts_below (lies.isName formed)]
      at parts
    rw [← List.append_cancel_left parts] at short
    exact absurd long (Bool.eq_false_iff.mp short)

end Query

end Emend
