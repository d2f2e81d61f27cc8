import Emend.Proofs.Resolution
import Emend.Query

/-!
# Listed paths

A query lists each file under one path. Every listed path has the components of
the path that the query starts from and then the names of entries, and no two
listed paths have the same components: the names in one directory differ, and
below different names all components differ. Links do not matter for this, since
a directory that is entered over a link is listed under the name of the link.

In a tree without links the components that follow those of the start are the
names on the way to the entry, so no two listed paths lead to one location.
-/

namespace Emend

namespace Tree

/-- A path does not lead to a location. -/
def Misses (t : Tree) (path : Text) (location : Location) : Prop :=
  ∀ entry, t.lookup path ≠ some (location, entry)

/-- Two paths do not lead to one location. -/
def Separate (t : Tree) (p q : Text) : Prop :=
  ∀ location entry, t.lookup p = some (location, entry) → t.Misses q location

theorem Separate.symm {t : Tree} {p q : Text} (separate : t.Separate p q) : t.Separate q p :=
  fun location entry second entry' first => separate location entry' first entry second

theorem lookup_eq_some_iff (t : Tree) (path : Text) (location : Location) (entry : Entry) :
    t.lookup path = some (location, entry) ↔ t.resolve true path = .ok (.found location entry) := by
  rw [lookup]
  split
  · rename_i found
    simp [found]
  · rename_i other
    constructor
    · intro found
      cases found
    · intro found
      exact absurd found (other location entry)

/-- Without links, what a path leads to is the entry at its location. -/
theorem entryAt_of_lookup {t : Tree} (linkFree : t.LinkFree) {path : Text} {location : Location}
    {entry : Entry} (found : t.lookup path = some (location, entry)) :
    t.entryAt location = some entry :=
  entryAt_of_resolve linkFree ((lookup_eq_some_iff t path location entry).mp found)

/-- A path leads to the same location in every tree of the same shape. -/
theorem SameShape.lookup {t u : Tree} (same : t.SameShape u) {path : Text} {location : Location}
    {entry : Entry} (found : t.lookup path = some (location, entry)) :
    ∃ entry', u.lookup path = some (location, entry') := by
  obtain ⟨entry', now, _⟩ :=
    resolve_of_sameShape same ((lookup_eq_some_iff t path location entry).mp found)
  exact ⟨entry', (lookup_eq_some_iff u path location entry').mpr now⟩

theorem SameShape.misses {t u : Tree} (same : t.SameShape u) {path : Text} {location : Location}
    (misses : t.Misses path location) : u.Misses path location := by
  intro entry found
  obtain ⟨entry', before⟩ := same.symm.lookup found
  exact misses entry' before

/-- A path finds at its location what a tree of the same shape holds there. -/
theorem SameShape.lookup_eq {t u : Tree} (same : t.SameShape u) (linkFree : t.LinkFree)
    {path : Text} {location : Location} {entry now : Entry}
    (found : t.lookup path = some (location, entry)) (holds : u.entryAt location = some now) :
    u.lookup path = some (location, now) := by
  obtain ⟨entry', there⟩ := same.lookup found
  rw [entryAt_of_lookup (same.linkFree linkFree) there] at holds
  rw [there, Option.some.inj holds]

/-- A path finds the same in two trees of the same shape that agree where it
leads. -/
theorem SameShape.lookup_congr {t u : Tree} (same : t.SameShape u) (linkFree : t.LinkFree)
    {path : Text}
    (kept : ∀ location entry, t.lookup path = some (location, entry) →
      u.entryAt location = t.entryAt location) :
    u.lookup path = t.lookup path := by
  cases found : t.lookup path with
  | none =>
    cases there : u.lookup path with
    | none => rfl
    | some item =>
      obtain ⟨entry, before⟩ := same.symm.lookup there
      cases found.symm.trans before
  | some item =>
    obtain ⟨location, entry⟩ := item
    have holds := kept location entry found
    rw [entryAt_of_lookup linkFree found] at holds
    exact same.lookup_eq linkFree found holds

/-- An entry is picked as a child exactly one name below the directory. -/
theorem picked_iff (directory location : Location) (entry : Entry) (child : Text × Entry) :
    (match location.getLast? with
      | some name => if location.dropLast = directory then some (name, entry) else none
      | none => none) = some child ↔
      location = directory ++ [child.1] ∧ entry = child.2 := by
  obtain ⟨name, kind⟩ := child
  rcases List.eq_nil_or_concat location with rfl | ⟨outer, last, rfl⟩
  · simp
  · rw [List.concat_eq_append, List.getLast?_concat, List.dropLast_concat]
    dsimp only
    constructor
    · intro picked
      split at picked
      · rename_i inside
        cases picked
        exact ⟨by rw [inside], rfl⟩
      · cases picked
    · rintro ⟨same, rfl⟩
      obtain ⟨rfl, last⟩ := List.append_inj' same rfl
      cases last
      rw [if_pos rfl]

/-- A child of a directory is an entry one name below it. -/
theorem mem_children {t : Tree} {directory : Location} {child : Text × Entry}
    (member : child ∈ t.children directory) : (directory ++ [child.1], child.2) ∈ t.entries := by
  obtain ⟨⟨location, entry⟩, listed, picked⟩ := List.mem_filterMap.mp member
  obtain ⟨rfl, rfl⟩ := (picked_iff directory location entry child).mp picked
  exact listed

theorem WellFormed.child_isName {t : Tree} (formed : t.WellFormed) {directory : Location}
    {child : Text × Entry} (member : child ∈ t.children directory) : Path.isName child.1 = true :=
  formed.named _ (mem_children member) child.1 (by simp)

/-- The names in one directory differ. -/
theorem WellFormed.children_pairwise {t : Tree} (formed : t.WellFormed) (directory : Location) :
    (t.children directory).Pairwise fun a b => a.1 ≠ b.1 := by
  have located : t.entries.Pairwise fun a b => a.1 ≠ b.1 := List.pairwise_map.mp formed.unique
  rw [children, List.pairwise_filterMap]
  refine located.imp ?_
  rintro ⟨location, entry⟩ ⟨location', entry'⟩ apart child picked child' picked' same
  obtain ⟨rfl, _⟩ := (picked_iff directory location entry child).mp picked
  obtain ⟨rfl, _⟩ := (picked_iff directory location' entry' child').mp picked'
  exact apart (congrArg (directory ++ [·]) same)

end Tree

namespace Query

/-- A path has the components of another and then names of entries, and it is read from where
the other one is read. -/
structure Extends (path longer : Text) (names : List Text) : Prop where
  named : ∀ name ∈ names, Path.isName name = true
  components : Path.parts longer = Path.parts path ++ names
  start : ∀ directory, Path.base directory longer = Path.base directory path

/-- What comes of one entry of a directory has its name after the components of
the directory. -/
theorem extends_of_join {path longer name : Text} {names : List Text}
    (named : Path.isName name = true) (further : Extends (Path.join path name) longer names) :
    Extends path longer (name :: names) where
  named := by
    intro any member
    rcases List.mem_cons.mp member with rfl | member
    · exact named
    · exact further.named any member
  components := by
    rw [further.components, Path.parts_join named, List.append_assoc, List.singleton_append]
  start := by
    intro directory
    rw [further.start, Path.base_join named]

theorem extends_join {path name : Text} (named : Path.isName name = true) :
    Extends path (Path.join path name) [name] :=
  ⟨by simp [named], Path.parts_join named path, fun _ => Path.base_join named _ path⟩

/-- The entries of a directory have its names after the path of the directory. -/
theorem mem_entriesIn {t : Tree} {path : Text} {directory : Location} {item : Text × Entry} :
    item ∈ entriesIn t path directory ↔
      ∃ name, (name, item.2) ∈ t.children directory ∧ item.1 = Path.join path name := by
  rw [entriesIn, List.mem_map]
  constructor
  · rintro ⟨⟨name, entry⟩, child, rfl⟩
    exact ⟨name, child, rfl⟩
  · rintro ⟨name, child, below⟩
    exact ⟨(name, item.2), child, Prod.ext below.symm rfl⟩

/-- What is true of any two entries of a directory with different names is true of any two of its
entries. -/
theorem entriesIn_pairwise {t : Tree} (formed : t.WellFormed) {path : Text} {directory : Location}
    {R : Text × Entry → Text × Entry → Prop}
    (apart : ∀ name entry name' entry', Path.isName name = true → Path.isName name' = true →
      name ≠ name' → R (Path.join path name, entry) (Path.join path name', entry')) :
    (entriesIn t path directory).Pairwise R := by
  rw [entriesIn, List.pairwise_map]
  apply (formed.children_pairwise directory).imp_of_mem
  rintro ⟨name, entry⟩ ⟨name', entry'⟩ child child' different
  exact apart name entry name' entry' (formed.child_isName child) (formed.child_isName child')
    different

/-- Every path that comes of one entry of a directory has the name of that entry
next, if the same holds one level further down. -/
theorem piece_extends {t : Tree} {followLinks : Bool} {depth : Nat} {path name found : Text}
    {entry : Entry} (named : Path.isName name = true)
    (further : ∀ path, ∀ found ∈ deepPaths t followLinks depth path,
      ∃ names, names ≠ [] ∧ Extends path found names)
    (piece : found ∈ (if isDirectoryEntry t (Path.join path name) entry then
      if followLinks || entry.isDirectory then
        deepPaths t followLinks depth (Path.join path name)
      else []
      else [Path.join path name])) :
    ∃ names, Extends path found (name :: names) := by
  split at piece
  · split at piece
    · obtain ⟨names, -, below⟩ := further _ found piece
      exact ⟨names, extends_of_join named below⟩
    · cases piece
  · rw [List.mem_singleton.mp piece]
    exact ⟨[], extends_join named⟩

/-- Every path found below a directory has names after those of the directory. -/
theorem deepPaths_extends {t : Tree} (formed : t.WellFormed) (followLinks : Bool) (depth : Nat)
    (path : Text) :
    ∀ found ∈ deepPaths t followLinks depth path,
      ∃ names, names ≠ [] ∧ Extends path found names := by
  induction depth generalizing path with
  | zero => simp [deepPaths]
  | succ depth inductionHypothesis =>
    intro found member
    rw [deepPaths] at member
    split at member
    · split at member
      · obtain ⟨⟨below, entry⟩, inside, piece⟩ := List.mem_flatMap.mp member
        obtain ⟨name, child, rfl⟩ := mem_entriesIn.mp inside
        obtain ⟨names, extended⟩ :=
          piece_extends (formed.child_isName child) inductionHypothesis piece
        exact ⟨name :: names, List.cons_ne_nil _ _, extended⟩
      · cases member
    · cases member

/-- Paths found below a directory differ in their components. Those that come of
different entries differ in the name of the entry. -/
theorem deepPaths_pairwise {t : Tree} (formed : t.WellFormed) (followLinks : Bool) (depth : Nat)
    (path : Text) :
    (deepPaths t followLinks depth path).Pairwise fun p q => Path.parts p ≠ Path.parts q := by
  induction depth generalizing path with
  | zero => simp [deepPaths]
  | succ depth inductionHypothesis =>
    rw [deepPaths]
    split
    · split
      · rw [List.pairwise_flatMap]
        constructor
        · rintro ⟨below, entry⟩ inside
          dsimp only
          split
          · split
            · exact inductionHypothesis _
            · exact .nil
          · exact List.pairwise_singleton _ _
        · apply entriesIn_pairwise formed
          intro name entry name' entry' named named' different p piece q piece' same
          have further := deepPaths_extends formed followLinks depth
          obtain ⟨names, extended⟩ := piece_extends named further piece
          obtain ⟨names', extended'⟩ := piece_extends named' further piece'
          rw [extended.components, extended'.components] at same
          exact different (List.cons.inj (List.append_cancel_left same)).1
      · exact .nil
    · exact .nil

section Filtering

variable {α : Type} {wanted : α → Except Fault Bool} {list found result kept : List α}

/-- Whether a test that can fail wants a value. -/
def wants (wanted : α → Except Fault Bool) (x : α) : Bool :=
  match wanted x with
  | .ok keep => keep
  | .error _ => false

theorem wants_eq_true_iff {x : α} : wants wanted x = true ↔ wanted x = .ok true := by
  rw [wants]
  cases wanted x <;> simp

/-- Filtering with a test that can fail collects, last first, the values that are wanted, if the
test fails for none. -/
theorem filterAuxM_eq_ok (filtered : list.filterAuxM wanted found = .ok result) :
    (∀ x ∈ list, ∃ keep, wanted x = .ok keep) ∧
      result = (list.filter (wants wanted)).reverse ++ found := by
  induction list generalizing found with
  | nil =>
    cases filtered
    exact ⟨by simp, rfl⟩
  | cons x rest inductionHypothesis =>
    rw [List.filterAuxM] at filtered
    obtain ⟨keep, here, further⟩ := bind_eq_ok filtered
    obtain ⟨tested, rfl⟩ := inductionHypothesis further
    constructor
    · intro y member
      rcases List.mem_cons.mp member with rfl | member
      · exact ⟨keep, here⟩
      · exact tested y member
    · have said : wants wanted x = keep := by rw [wants, here]
      cases keep with
      | false => rw [List.filter_cons_of_neg (by simp [said])]; rfl
      | true => rw [List.filter_cons_of_pos said]; simp

theorem filterAuxM_eq_error {fault : Fault}
    (refused : list.filterAuxM wanted found = .error fault) :
    ∃ x ∈ list, ∃ cause, wanted x = .error cause := by
  induction list generalizing found with
  | nil => cases refused
  | cons x rest inductionHypothesis =>
    rw [List.filterAuxM] at refused
    rcases bind_eq_error refused with here | ⟨keep, _, further⟩
    · exact ⟨x, List.mem_cons_self, fault, here⟩
    · obtain ⟨y, member, cause⟩ := inductionHypothesis further
      exact ⟨y, List.mem_cons_of_mem x member, cause⟩

theorem filterM_eq_error {fault : Fault} (refused : list.filterM wanted = .error fault) :
    ∃ x ∈ list, ∃ cause, wanted x = .error cause := by
  rw [List.filterM] at refused
  rcases bind_eq_error refused with here | ⟨_, _, impossible⟩
  · exact filterAuxM_eq_error here
  · cases impossible

theorem filterM_eq_ok (filtered : list.filterM wanted = .ok kept) :
    (∀ x ∈ list, ∃ keep, wanted x = .ok keep) ∧ kept = list.filter (wants wanted) := by
  rw [List.filterM] at filtered
  obtain ⟨result, collected, reversed⟩ := bind_eq_ok filtered
  obtain ⟨tested, rfl⟩ := filterAuxM_eq_ok collected
  exact ⟨tested, by simpa using (Except.ok.inj reversed).symm⟩

/-- A test that never fails filters. -/
theorem filterM_ok (tested : ∀ x ∈ list, ∃ keep, wanted x = .ok keep) :
    list.filterM wanted = .ok (list.filter (wants wanted)) := by
  cases filtered : list.filterM wanted with
  | error fault =>
    obtain ⟨x, member, cause, failed⟩ := filterM_eq_error filtered
    obtain ⟨keep, answered⟩ := tested x member
    rw [failed] at answered
    cases answered
  | ok kept => rw [(filterM_eq_ok filtered).2]

end Filtering

theorem accepted_sublist {filter : PathFilter} {globs : List Value} {paths kept : List Text}
    (filtered : accepted filter globs paths = .ok kept) : kept.Sublist paths := by
  obtain ⟨-, rfl⟩ := filterM_eq_ok filtered
  exact List.filter_sublist

/-- The files directly in a directory that may be read are some of its entries, in their
order. -/
theorem flatPaths_eq_ok {t : Tree} {followLinks : Bool} {path : Text} {directory : Location}
    {mode : Nat} {files : List Text}
    (listed : flatPaths t followLinks path directory mode = .ok files) :
    t.grants mode .read = true ∧
      (∀ item ∈ entriesIn t path directory,
        ∃ keep, isFileEntry t followLinks item.1 item.2 = .ok keep) ∧
      files = ((entriesIn t path directory).filter
        (wants fun item => isFileEntry t followLinks item.1 item.2)).map Prod.fst := by
  rw [flatPaths] at listed
  split at listed
  · rename_i readable
    obtain ⟨kept, filtered, same⟩ := bind_eq_ok listed
    obtain ⟨tested, rfl⟩ := filterM_eq_ok filtered
    exact ⟨readable, tested, (Except.ok.inj same).symm⟩
  · cases listed

/-- The files directly in a directory have one name after those of the
directory, and the names differ. -/
theorem flatPaths_extends {t : Tree} (formed : t.WellFormed) {followLinks : Bool} {path : Text}
    {directory : Location} {mode : Nat} {files : List Text}
    (listed : flatPaths t followLinks path directory mode = .ok files) :
    (∀ found ∈ files, ∃ names, Extends path found names) ∧
      files.Pairwise fun p q => Path.parts p ≠ Path.parts q := by
  obtain ⟨-, -, rfl⟩ := flatPaths_eq_ok listed
  constructor
  · intro found member
    obtain ⟨item, inside, rfl⟩ := List.mem_map.mp member
    obtain ⟨name, child, below⟩ := mem_entriesIn.mp (List.mem_filter.mp inside).1
    rw [below]
    exact ⟨[name], extends_join (formed.child_isName child)⟩
  · rw [List.pairwise_map]
    apply List.Pairwise.filter
    apply entriesIn_pairwise formed
    intro name entry name' entry' named named' different same
    rw [Path.parts_join named, Path.parts_join named'] at same
    exact different (List.cons.inj (List.append_cancel_left same)).1

/-- A path with names after the components of a directory leads to the location
with these names after that of the directory. -/
theorem location_of_extends {t : Tree} (linkFree : t.LinkFree) {path longer : Text}
    {directory location : Location} {mode : Nat} {names : List Text} {entry : Entry}
    (way : t.lookup path = some (directory, .directory mode)) (below : Extends path longer names)
    (found : t.lookup longer = some (location, entry)) : location = directory ++ names := by
  rw [Tree.lookup_eq_some_iff] at way found
  have outer := Tree.leads_of_resolve linkFree way
  have whole := Tree.leads_of_resolve linkFree found
  rw [below.start, below.components] at whole
  exact (outer.of_append linkFree whole).plain_names fun name member =>
    Tree.plain_of_isName (below.named name member)

/-- Without links, paths below one directory that differ in their components
lead to different locations. -/
theorem separate_of_extends {t : Tree} (linkFree : t.LinkFree) {path : Text}
    {directory : Location} {mode : Nat} (way : t.lookup path = some (directory, .directory mode))
    {paths : List Text} (below : ∀ found ∈ paths, ∃ names, Extends path found names)
    (different : paths.Pairwise fun p q => Path.parts p ≠ Path.parts q) :
    paths.Pairwise t.Separate := by
  refine different.imp_of_mem ?_
  intro p q inP inQ apart location entry foundP entry' foundQ
  obtain ⟨namesP, belowP⟩ := below p inP
  obtain ⟨namesQ, belowQ⟩ := below q inQ
  have spelledP := location_of_extends linkFree way belowP foundP
  have spelledQ := location_of_extends linkFree way belowQ foundQ
  rw [spelledP] at spelledQ
  rw [belowP.components, belowQ.components, List.append_cancel_left spelledQ] at apart
  exact apart rfl

/-- Nothing is found below a path that leads to no directory. -/
theorem deepPaths_of_missing {t : Tree} {followLinks : Bool} {depth : Nat} {path : Text}
    (missing : ∀ directory mode, t.lookup path ≠ some (directory, .directory mode)) :
    deepPaths t followLinks depth path = [] := by
  cases depth with
  | zero => rfl
  | succ depth =>
    rw [deepPaths]
    split
    · rename_i directory mode way
      exact absurd way (missing directory mode)
    · rfl

/-- The paths of a query lead to different locations. -/
theorem paths_separate {t : Tree} (formed : t.WellFormed) (linkFree : t.LinkFree) {q : Query}
    {paths : List Text} (listed : q.paths t = .ok paths) : paths.Pairwise t.Separate := by
  cases q with
  | single path =>
    cases listed
    split
    · exact List.pairwise_singleton _ _
    · exact .nil
  | inDirectory path filter recursive followLinks globs =>
    cases recursive with
    | true =>
      have within := accepted_sublist listed
      by_cases way : ∃ directory mode, t.lookup path = some (directory, .directory mode)
      · obtain ⟨directory, mode, way⟩ := way
        have below : ∀ found ∈ deepPaths t followLinks Path.maxPath path,
            ∃ names, Extends path found names := by
          intro found member
          obtain ⟨names, -, extended⟩ := deepPaths_extends formed _ _ _ found member
          exact ⟨names, extended⟩
        have different := deepPaths_pairwise formed followLinks Path.maxPath path
        exact (separate_of_extends linkFree way below different).sublist within
      · rw [deepPaths_of_missing fun directory mode there => way ⟨directory, mode, there⟩] at within
        rw [List.sublist_nil.mp within]
        exact .nil
    | false =>
      simp only [Query.paths] at listed
      split at listed
      · cases listed
      · cases listed
      · rename_i directory mode way
        obtain ⟨files, flat, filtered⟩ := bind_eq_ok listed
        obtain ⟨below, different⟩ := flatPaths_extends formed flat
        have way := (Tree.lookup_eq_some_iff t path directory (.directory mode)).mpr way
        exact (separate_of_extends linkFree way below different).sublist (accepted_sublist filtered)
      · cases listed

theorem of_sortedPaths_eq_ok {t : Tree} {q : Query} {paths : List Text}
    (listed : q.sortedPaths t = .ok paths) :
    ∃ found, q.paths t = .ok found ∧ paths = found.mergeSort Text.precedes := by
  rw [sortedPaths] at listed
  cases unsorted : q.paths t with
  | error fault =>
    rw [unsorted] at listed
    cases listed
  | ok found =>
    rw [unsorted] at listed
    exact ⟨found, rfl, (Except.ok.inj listed).symm⟩

/-- Sorting does not change which paths there are. -/
theorem sortedPaths_separate {t : Tree} (formed : t.WellFormed) (linkFree : t.LinkFree)
    {q : Query} {paths : List Text} (listed : q.sortedPaths t = .ok paths) :
    paths.Pairwise t.Separate := by
  obtain ⟨found, unsorted, rfl⟩ := of_sortedPaths_eq_ok listed
  have separate := paths_separate formed linkFree unsorted
  exact ((List.mergeSort_perm found Text.precedes).pairwise_iff Tree.Separate.symm).mpr separate

/-- Nothing is listed if the start of the query is not there. -/
theorem sortedPaths_of_missing {t : Tree} {q : Query} {paths : List Text}
    (missing : q.targetExists t = false) (listed : q.sortedPaths t = .ok paths) : paths = [] := by
  obtain ⟨found, unsorted, rfl⟩ := of_sortedPaths_eq_ok listed
  suffices found = [] by simp [this]
  cases q with
  | single path =>
    rw [targetExists] at missing
    simpa [Query.paths, missing] using unsorted.symm
  | inDirectory path filter recursive followLinks globs =>
    have noDirectory (directory : Location) (mode : Nat) :
        t.lookup path ≠ some (directory, .directory mode) := by
      intro way
      simp [targetExists, Tree.isDirectory, way] at missing
    cases recursive with
    | true =>
      have within := accepted_sublist unsorted
      rw [deepPaths_of_missing noDirectory] at within
      exact List.sublist_nil.mp within
    | false =>
      simp only [Query.paths] at unsorted
      split at unsorted
      · cases unsorted
      · cases unsorted
      · rename_i directory mode way
        exact absurd ((Tree.lookup_eq_some_iff t path directory (.directory mode)).mpr way)
          (noDirectory directory mode)
      · cases unsorted

end Query

end Emend
