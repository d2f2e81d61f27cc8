import Emend.Proofs.Listing

/-!
# Two listings of one directory

The files directly in a directory are listed by a query for that directory alone,
and by one for all directories below it. The two ask different questions of an
entry: the first whether it is a file, the second whether it is no directory.

Files and directories answer both alike. A link does not. The second query lists
every link that leads to no directory, whether links are followed or not and
whether the link leads anywhere; the first lists it only if links are followed and
it leads to a file. So the listings agree up to such links, and the first listing
is refused where a link cannot be followed for another reason than that it leads
nowhere. It is refused as well where the directory may not be read, which the second
query passes over.
-/

namespace Emend

namespace Tree

/-- In a tree with one entry at each location, the entries that are listed are those that are
found. -/
theorem WellFormed.entryAt_eq_some_iff {t : Tree} (formed : t.WellFormed) {location : Location}
    {entry : Entry} (proper : location ≠ []) :
    t.entryAt location = some entry ↔ (location, entry) ∈ t.entries := by
  constructor
  · exact mem_of_entryAt proper
  · intro listed
    obtain ⟨before, after, split⟩ := List.append_of_mem listed
    have unique := formed.unique
    rw [split, List.map_append, List.map_cons] at unique
    have absent : location ∉ before.map Prod.fst := by
      intro earlier
      exact (List.nodup_append.mp unique).2.2 location earlier location List.mem_cons_self rfl
    cases location with
    | nil => exact absurd rfl proper
    | cons name rest =>
      rw [entryAt, List.lookup_eq_some_iff]
      · refine ⟨before, after, split, ?_⟩
        intro item member
        rw [bne_iff_ne]
        intro same
        exact absent (List.mem_map.mpr ⟨item, member, same.symm⟩)
      · simp

/-- The children of a directory are the entries one name below it. -/
theorem WellFormed.mem_children_iff {t : Tree} (formed : t.WellFormed) {directory : Location}
    {name : Text} {entry : Entry} :
    (name, entry) ∈ t.children directory ↔ t.entryAt (directory ++ [name]) = some entry := by
  rw [formed.entryAt_eq_some_iff (by simp)]
  constructor
  · exact mem_children
  · intro listed
    rw [children, List.mem_filterMap]
    exact ⟨_, listed, (picked_iff directory _ entry (name, entry)).mpr ⟨rfl, rfl⟩⟩

theorem isDirectory_iff {t : Tree} {path : Text} :
    t.isDirectory path = true ↔
      ∃ directory mode, t.lookup path = some (directory, .directory mode) := by
  rw [isDirectory]
  split
  · rename_i directory mode found
    simp [found]
  · rename_i other
    constructor
    · intro impossible
      cases impossible
    · rintro ⟨directory, mode, found⟩
      exact absurd found (other directory mode)

theorem isFile_iff {t : Tree} {path : Text} :
    t.isFile path = true ↔
      ∃ location bytes mode, t.resolve true path = .ok (.found location (.file bytes mode)) := by
  rw [isFile]
  split
  · rename_i location bytes mode found
    exact iff_of_true rfl ⟨location, bytes, mode, (lookup_eq_some_iff ..).mp found⟩
  · rename_i other
    constructor
    · intro impossible
      cases impossible
    · rintro ⟨location, bytes, mode, found⟩
      exact absurd ((lookup_eq_some_iff ..).mpr found) (other location bytes mode)

theorem not_isDirectory_of_isFile {t : Tree} {path : Text} (file : t.isFile path = true) :
    t.isDirectory path = false := by
  obtain ⟨location, bytes, mode, found⟩ := isFile_iff.mp file
  rw [isDirectory, (lookup_eq_some_iff ..).mpr found]

end Tree

namespace Query

/-- A path that a query wants: no glob covers its normal form, with or without a slash in front,
and the filter lets it through. -/
structure Wanted (filter : PathFilter) (globs : List Text) (path : Text) : Prop where
  uncovered : ∀ glob ∈ globs, Glob.covers glob (Path.normalize path) = false ∧
    Glob.covers glob ('/' :: Path.normalize path) = false
  passes : filter.accepts path = true

/-- Globs that are texts are tried without a fault. -/
theorem ignoredBy_texts (globs : List Text) (candidate : Text) :
    ignoredBy candidate (globs.map .text) = .ok (globs.any fun glob =>
      Glob.covers glob candidate || Glob.covers glob ('/' :: candidate)) := by
  induction globs with
  | nil => rfl
  | cons glob rest inductionHypothesis =>
    rw [List.map_cons, ignoredBy, inductionHypothesis, List.any_cons]
    split
    · rename_i covered
      rw [covered, Bool.true_or]
    · rename_i free
      rw [Bool.not_eq_true] at free
      rw [free, Bool.false_or]

/-- What the test of a path says, for globs that are texts. -/
theorem isAccepted_texts (filter : PathFilter) (globs : List Text) (path : Text) :
    ∃ keep, isAccepted filter (globs.map .text) path = .ok keep ∧
      (keep = true ↔ Wanted filter globs path) := by
  rw [isAccepted, isIgnored, ignoredBy_texts]
  refine ⟨_, rfl, ?_⟩
  rw [Bool.and_eq_true, Bool.not_eq_true', List.any_eq_false]
  constructor
  · rintro ⟨uncovered, passes⟩
    refine ⟨?_, passes⟩
    intro glob member
    simpa using uncovered glob member
  · rintro ⟨uncovered, passes⟩
    refine ⟨?_, passes⟩
    intro glob member
    simpa using uncovered glob member

/-- With globs that are texts, the paths that are wanted are kept. -/
theorem accepted_texts (filter : PathFilter) (globs paths : List Text) :
    ∃ kept, accepted filter (globs.map .text) paths = .ok kept ∧ kept.Sublist paths ∧
      ∀ path, path ∈ kept ↔ path ∈ paths ∧ Wanted filter globs path := by
  have tested : ∀ path ∈ paths, ∃ keep, isAccepted filter (globs.map .text) path = .ok keep := by
    intro path _
    obtain ⟨keep, said, -⟩ := isAccepted_texts filter globs path
    exact ⟨keep, said⟩
  refine ⟨_, filterM_ok tested, List.filter_sublist, ?_⟩
  intro path
  obtain ⟨keep, said, wanted⟩ := isAccepted_texts filter globs path
  rw [List.mem_filter, wants_eq_true_iff, said, Except.ok.injEq, wanted]

/-- The query for the files directly in a directory. -/
def flat (target : Text) (filter : PathFilter) (globs : List Text) (followLinks : Bool) : Query :=
  .inDirectory target filter false followLinks (globs.map .text)

/-- The query for the files in a directory and in all directories below it. -/
def deep (target : Text) (filter : PathFilter) (globs : List Text) (followLinks : Bool) : Query :=
  .inDirectory target filter true followLinks (globs.map .text)

/-- A path of an entry directly in a directory that has a path. -/
def Direct (target path : Text) : Prop :=
  ∃ name, Path.isName name = true ∧ path = Path.join target name

/-- A path of a link directly in a directory that has a location and a path. -/
def Linked (t : Tree) (directory : Location) (target path : Text) : Prop :=
  ∃ name link, t.entryAt (directory ++ [name]) = some (.link link) ∧ path = Path.join target name

theorem join_injective {target name other : Text} (named : Path.isName name = true)
    (otherNamed : Path.isName other = true)
    (same : Path.join target name = Path.join target other) : name = other := by
  have parts := congrArg Path.parts same
  rw [Path.parts_join named, Path.parts_join otherNamed] at parts
  exact (List.cons.inj (List.append_cancel_left parts)).1

section Entries

variable {t : Tree} {followLinks : Bool} {path : Text} {entry : Entry}

/-- An entry is a file as a link that is followed to one, or by itself. -/
theorem isFileEntry_eq_true_iff :
    isFileEntry t followLinks path entry = .ok true ↔
      (∃ bytes mode, entry = .file bytes mode) ∨
        (∃ link, entry = .link link) ∧ followLinks = true ∧ t.isFile path = true := by
  cases entry with
  | file bytes mode => simp [isFileEntry]
  | directory mode => simp [isFileEntry]
  | link link =>
    rw [Tree.isFile_iff, isFileEntry]
    cases followLinks with
    | false => simp
    | true =>
      rw [if_pos rfl]
      split <;> simp_all

/-- Asking whether an entry is a file fails for links that are followed, and not because they lead
nowhere. -/
theorem isFileEntry_eq_error_iff :
    (∃ fault, isFileEntry t followLinks path entry = .error fault) ↔
      (∃ link, entry = .link link) ∧ followLinks = true ∧
        ∃ fault, t.resolve true path = .error fault ∧ fault ≠ .notFound := by
  cases entry with
  | file bytes mode => simp [isFileEntry]
  | directory mode => simp [isFileEntry]
  | link link =>
    rw [isFileEntry]
    cases followLinks with
    | false => simp
    | true =>
      rw [if_pos rfl]
      split <;> simp_all

theorem isDirectoryEntry_eq_false_iff :
    isDirectoryEntry t path entry = false ↔
      (∃ bytes mode, entry = .file bytes mode) ∨
        (∃ link, entry = .link link) ∧ t.isDirectory path = false := by
  cases entry <;> simp [isDirectoryEntry]

end Entries

section Listings

variable {t : Tree} {target : Text} {directory : Location} {mode : Nat}

/-- One step of a walk: what is found below a directory comes of one of its entries, which is found
itself or walked on. -/
theorem mem_deepPaths_succ (formed : t.WellFormed) {followLinks : Bool} {depth : Nat}
    {path found : Text} (way : t.lookup path = some (directory, .directory mode)) :
    found ∈ deepPaths t followLinks (depth + 1) path ↔
      t.grants mode .read = true ∧ ∃ name entry, t.entryAt (directory ++ [name]) = some entry ∧
        (isDirectoryEntry t (Path.join path name) entry = false ∧ found = Path.join path name ∨
          isDirectoryEntry t (Path.join path name) entry = true ∧
            (followLinks || entry.isDirectory) = true ∧
            found ∈ deepPaths t followLinks depth (Path.join path name)) := by
  rw [deepPaths, way]
  dsimp only
  rw [List.mem_ite_nil_right]
  simp only [List.mem_flatMap, Prod.exists, mem_entriesIn, formed.mem_children_iff]
  constructor
  · rintro ⟨readable, _, entry, ⟨name, held, rfl⟩, piece⟩
    refine ⟨readable, name, entry, held, ?_⟩
    cases directory : isDirectoryEntry t (Path.join path name) entry with
    | false =>
      rw [directory, if_neg Bool.false_ne_true] at piece
      exact .inl ⟨rfl, List.mem_singleton.mp piece⟩
    | true =>
      rw [directory, if_pos rfl, List.mem_ite_nil_right] at piece
      exact .inr ⟨rfl, piece⟩
  · rintro ⟨readable, name, entry, held, piece⟩
    refine ⟨readable, _, entry, ⟨name, held, rfl⟩, ?_⟩
    rcases piece with ⟨directory, rfl⟩ | ⟨directory, piece⟩
    · rw [directory, if_neg Bool.false_ne_true]
      exact List.mem_singleton_self _
    · rw [directory, if_pos rfl, List.mem_ite_nil_right]
      exact piece

/-- Of the paths below a directory that may be read, those that lie directly in it are its entries
that are no directories. What comes from further down has one more component. -/
theorem mem_deepPaths_direct (formed : t.WellFormed) {followLinks : Bool} {depth : Nat}
    {name : Text} (way : t.lookup target = some (directory, .directory mode))
    (readable : t.grants mode .read = true) (named : Path.isName name = true) :
    Path.join target name ∈ deepPaths t followLinks (depth + 1) target ↔
      ∃ entry, t.entryAt (directory ++ [name]) = some entry ∧
        isDirectoryEntry t (Path.join target name) entry = false := by
  rw [mem_deepPaths_succ formed way]
  constructor
  · rintro ⟨-, other, entry, held, piece⟩
    have otherNamed := formed.child_isName (formed.mem_children_iff.mpr held)
    rcases piece with ⟨noDirectory, same⟩ | ⟨-, -, piece⟩
    · obtain rfl := join_injective named otherNamed same
      exact ⟨entry, held, noDirectory⟩
    · -- A path from further down has at least two names after the directory.
      obtain ⟨names, further, extended⟩ := deepPaths_extends formed followLinks depth _ _ piece
      have parts := extended.components
      rw [Path.parts_join named, Path.parts_join otherNamed, List.append_assoc] at parts
      have lengths := congrArg List.length (List.append_cancel_left parts)
      have filled := List.length_pos_iff.mpr further
      simp only [List.length_append, List.length_singleton] at lengths
      omega
  · rintro ⟨entry, held, noDirectory⟩
    exact ⟨readable, name, entry, held, .inl ⟨noDirectory, rfl⟩⟩

/-- The files directly in a directory that is listed alone. -/
theorem mem_flatPaths (formed : t.WellFormed) {followLinks : Bool} {files : List Text}
    (listed : flatPaths t followLinks target directory mode = .ok files) {path : Text} :
    path ∈ files ↔ ∃ name entry, t.entryAt (directory ++ [name]) = some entry ∧
      path = Path.join target name ∧ isFileEntry t followLinks path entry = .ok true := by
  obtain ⟨-, -, rfl⟩ := flatPaths_eq_ok listed
  simp only [List.mem_map, List.mem_filter, wants_eq_true_iff, Prod.exists, mem_entriesIn,
    formed.mem_children_iff]
  constructor
  · rintro ⟨below, entry, ⟨⟨name, held, rfl⟩, isFile⟩, rfl⟩
    exact ⟨name, entry, held, rfl, isFile⟩
  · rintro ⟨name, entry, held, rfl, isFile⟩
    exact ⟨_, entry, ⟨⟨name, held, rfl⟩, isFile⟩, rfl⟩

/-- Listing a directory alone is refused exactly if it may not be read or a link in it cannot be
followed, and not because it leads nowhere. -/
theorem flatPaths_eq_error_iff (formed : t.WellFormed) {followLinks : Bool} :
    (∃ fault, flatPaths t followLinks target directory mode = .error fault) ↔
      t.grants mode .read = false ∨
        followLinks = true ∧ ∃ path, Linked t directory target path ∧
          ∃ fault, t.resolve true path = .error fault ∧ fault ≠ .notFound := by
  cases readable : t.grants mode .read with
  | false => exact iff_of_true ⟨.file .denied, by simp [flatPaths, readable]⟩ (.inl rfl)
  | true =>
    simp only [Bool.true_eq_false, false_or]
    constructor
    · rintro ⟨fault, refused⟩
      rw [flatPaths, if_pos readable] at refused
      obtain ⟨⟨path, entry⟩, inside, cause, failed⟩ : ∃ item ∈ entriesIn t target directory,
          ∃ fault, isFileEntry t followLinks item.1 item.2 = .error fault := by
        rcases bind_eq_error refused with refused | ⟨_, _, impossible⟩
        · exact filterM_eq_error refused
        · cases impossible
      obtain ⟨name, child, rfl⟩ := mem_entriesIn.mp inside
      obtain ⟨⟨link, rfl⟩, followed, unreached⟩ := isFileEntry_eq_error_iff.mp ⟨cause, failed⟩
      exact ⟨followed, _, ⟨name, link, formed.mem_children_iff.mp child, rfl⟩, unreached⟩
    · rintro ⟨rfl, path, ⟨name, link, held, rfl⟩, unreached⟩
      obtain ⟨fault, failed⟩ := isFileEntry_eq_error_iff.mpr ⟨⟨link, rfl⟩, rfl, unreached⟩
      cases listed : flatPaths t true target directory mode with
      | error fault => exact ⟨fault, rfl⟩
      | ok files =>
        obtain ⟨-, tested, -⟩ := flatPaths_eq_ok listed
        obtain ⟨keep, kept⟩ := tested (Path.join target name, .link link)
          (mem_entriesIn.mpr ⟨name, formed.mem_children_iff.mpr held, rfl⟩)
        rw [failed] at kept
        cases kept

/-- Of a directory that may not be read, nothing is found. -/
theorem deepPaths_of_unreadable (formed : t.WellFormed) {followLinks : Bool} {depth : Nat}
    (way : t.lookup target = some (directory, .directory mode))
    (unreadable : t.grants mode .read = false) :
    deepPaths t followLinks (depth + 1) target = [] := by
  rw [List.eq_nil_iff_forall_not_mem]
  intro path member
  have readable := ((mem_deepPaths_succ formed way).mp member).1
  rw [unreadable] at readable
  cases readable

/-- A link in a directory lies directly in it. -/
theorem Linked.direct (formed : t.WellFormed) {path : Text}
    (linked : Linked t directory target path) : Direct target path := by
  obtain ⟨name, link, held, rfl⟩ := linked
  exact ⟨name, formed.child_isName (formed.mem_children_iff.mpr held), rfl⟩

/-- The path of a link is the path of that entry and of no other one. -/
theorem linked_join_iff (formed : t.WellFormed) {name : Text} {entry : Entry}
    (held : t.entryAt (directory ++ [name]) = some entry) :
    Linked t directory target (Path.join target name) ↔ ∃ link, entry = .link link := by
  constructor
  · rintro ⟨other, link, linked, same⟩
    have named := formed.child_isName (formed.mem_children_iff.mpr held)
    have otherNamed := formed.child_isName (formed.mem_children_iff.mpr linked)
    obtain rfl := join_injective named otherNamed same
    exact ⟨link, Option.some.inj (held.symm.trans linked)⟩
  · rintro ⟨link, rfl⟩
    exact ⟨name, link, held, rfl⟩

/-- A directory that is listed alone has, of the paths directly in it that the listing with all
directories below has, all that are no links and the links that are followed to a file. -/
theorem mem_flatPaths_iff_deepPaths (formed : t.WellFormed) {followLinks : Bool} {depth : Nat}
    {files : List Text} (way : t.lookup target = some (directory, .directory mode))
    (listed : flatPaths t followLinks target directory mode = .ok files) {path : Text} :
    path ∈ files ↔
      (path ∈ deepPaths t followLinks (depth + 1) target ∧ Direct target path) ∧
        (Linked t directory target path → followLinks = true ∧ t.isFile path = true) := by
  have readable := (flatPaths_eq_ok listed).1
  rw [mem_flatPaths formed listed]
  constructor
  · rintro ⟨name, entry, held, rfl, isFile⟩
    have named := formed.child_isName (formed.mem_children_iff.mpr held)
    rw [mem_deepPaths_direct formed way readable named, linked_join_iff formed held]
    rcases isFileEntry_eq_true_iff.mp isFile with ⟨bytes, mode, rfl⟩ | ⟨⟨link, rfl⟩, followed⟩
    · refine ⟨⟨⟨_, held, isDirectoryEntry_eq_false_iff.mpr (.inl ⟨bytes, mode, rfl⟩)⟩,
        name, named, rfl⟩, ?_⟩
      rintro ⟨link, impossible⟩
      cases impossible
    · have noDirectory := Tree.not_isDirectory_of_isFile followed.2
      exact ⟨⟨⟨_, held, isDirectoryEntry_eq_false_iff.mpr (.inr ⟨⟨link, rfl⟩, noDirectory⟩)⟩,
        name, named, rfl⟩, fun _ => followed⟩
  · rintro ⟨⟨below, name, named, rfl⟩, followed⟩
    obtain ⟨entry, held, noDirectory⟩ :=
      (mem_deepPaths_direct formed way readable named).mp below
    refine ⟨name, entry, held, rfl, isFileEntry_eq_true_iff.mpr ?_⟩
    rcases isDirectoryEntry_eq_false_iff.mp noDirectory with file | ⟨link, -⟩
    · exact .inl file
    · exact .inr ⟨link, followed ((linked_join_iff formed held).mpr link)⟩

/-- The query for a directory alone filters its files. -/
theorem flat_paths_eq (filter : PathFilter) (globs : List Text) (followLinks : Bool)
    (way : t.lookup target = some (directory, .directory mode)) :
    (flat target filter globs followLinks).paths t =
      (flatPaths t followLinks target directory mode).bind
        (accepted filter (globs.map .text)) := by
  rw [flat, paths, (Tree.lookup_eq_some_iff ..).mp way]

/-- Filtering by texts refuses nothing, so the query for a directory alone is refused with the
listing of its files. -/
theorem flat_paths_eq_error_iff (filter : PathFilter) (globs : List Text) (followLinks : Bool)
    (way : t.lookup target = some (directory, .directory mode)) :
    (∃ fault, (flat target filter globs followLinks).paths t = .error fault) ↔
      ∃ fault, flatPaths t followLinks target directory mode = .error fault := by
  rw [flat_paths_eq filter globs followLinks way]
  constructor
  · rintro ⟨fault, refused⟩
    rcases bind_eq_error refused with refused | ⟨files, _, refused⟩
    · exact ⟨fault, refused⟩
    · obtain ⟨kept, accepts, -⟩ := accepted_texts filter globs files
      rw [accepts] at refused
      cases refused
  · rintro ⟨fault, refused⟩
    rw [refused]
    exact ⟨fault, rfl⟩

/-- What the two queries for a directory have in common, if the one for it alone is answered. -/
theorem mem_flat_iff_mem_deep (formed : t.WellFormed) {filter : PathFilter} {globs : List Text}
    {followLinks : Bool} {found listed : List Text}
    (way : t.lookup target = some (directory, .directory mode))
    (all : (deep target filter globs followLinks).paths t = .ok found)
    (alone : (flat target filter globs followLinks).paths t = .ok listed) (path : Text) :
    path ∈ listed ↔ (path ∈ found ∧ Direct target path) ∧
      (Linked t directory target path → followLinks = true ∧ t.isFile path = true) := by
  obtain ⟨_, allAccepted, -, foundIff⟩ :=
    accepted_texts filter globs (deepPaths t followLinks Path.maxPath target)
  obtain rfl := Except.ok.inj (all.symm.trans allAccepted)
  rw [flat_paths_eq filter globs followLinks way] at alone
  obtain ⟨files, flatFiles, filtered⟩ := bind_eq_ok alone
  obtain ⟨_, accepts, -, listedIff⟩ := accepted_texts filter globs files
  obtain rfl := Except.ok.inj (filtered.symm.trans accepts)
  rw [listedIff, foundIff, mem_flatPaths_iff_deepPaths formed way flatFiles]
  constructor
  · rintro ⟨⟨⟨below, direct⟩, followed⟩, wanted⟩
    exact ⟨⟨⟨below, wanted⟩, direct⟩, followed⟩
  · rintro ⟨⟨⟨below, wanted⟩, direct⟩, followed⟩
    exact ⟨⟨⟨below, direct⟩, followed⟩, wanted⟩

end Listings

/-- How the two listings of a directory compare.

The listing with all directories below is never refused. The listing of the
directory alone is refused exactly if the directory may not be read, in which case the
other listing is empty, or if links are followed and one in the directory fails for
another reason than that it leads nowhere. Otherwise it has, of the paths directly in
the directory that the other listing has, all that are no links and the links that are
followed to a file. So the two agree on the paths directly in the directory exactly if
every link that the other listing has there is followed to a file. -/
theorem flat_listing_agrees_iff {t : Tree} (formed : t.WellFormed) {target : Text}
    (filter : PathFilter) (globs : List Text) (followLinks : Bool)
    (there : t.isDirectory target = true) :
    ∃ directory mode found, t.lookup target = some (directory, .directory mode) ∧
      (deep target filter globs followLinks).paths t = .ok found ∧
      (t.grants mode .read = false → found = []) ∧
      ((∃ fault, (flat target filter globs followLinks).paths t = .error fault) ↔
        t.grants mode .read = false ∨
          followLinks = true ∧ ∃ path, Linked t directory target path ∧
            ∃ fault, t.resolve true path = .error fault ∧ fault ≠ .notFound) ∧
      ∀ listed, (flat target filter globs followLinks).paths t = .ok listed →
        (∀ path, path ∈ listed ↔ (path ∈ found ∧ Direct target path) ∧
          (Linked t directory target path → followLinks = true ∧ t.isFile path = true)) ∧
        ((∀ path, path ∈ listed ↔ path ∈ found ∧ Direct target path) ↔
          ∀ path ∈ found, Linked t directory target path →
            followLinks = true ∧ t.isFile path = true) := by
  obtain ⟨directory, mode, way⟩ := Tree.isDirectory_iff.mp there
  obtain ⟨found, all, some, -⟩ :=
    accepted_texts filter globs (deepPaths t followLinks Path.maxPath target)
  refine ⟨directory, mode, found, way, all, ?_, ?_, ?_⟩
  · intro unreadable
    rw [Path.maxPath, deepPaths_of_unreadable formed way unreadable] at some
    exact List.sublist_nil.mp some
  · rw [flat_paths_eq_error_iff filter globs followLinks way, flatPaths_eq_error_iff formed]
  · intro listed alone
    have each := mem_flat_iff_mem_deep formed way all alone
    refine ⟨each, ?_⟩
    constructor
    · intro agree path inFound linked
      exact ((each path).mp ((agree path).mpr ⟨inFound, linked.direct formed⟩)).2 linked
    · intro followed path
      rw [each]
      constructor
      · intro both
        exact both.1
      · intro both
        exact ⟨both, followed path both.1⟩

/-- A directory with a file, a link to the file and a link that leads nowhere. -/
def linkedTree : Tree where
  entries := [([['d']], .directory Tree.directoryMode), ([['d'], ['a']], .file [] Tree.fileMode),
    ([['d'], ['k']], .link ['a']), ([['d'], ['n']], .link ['g'])]

/-- With links followed, the link that leads nowhere is in one of the two listings only. -/
theorem dangling_link_listed_once :
    (linkedTree.WellFormed ∧ linkedTree.isDirectory ['d'] = true) ∧
      (flat ['d'] .all [] true).paths linkedTree = .ok [['d', '/', 'a'], ['d', '/', 'k']] ∧
      (deep ['d'] .all [] true).paths linkedTree =
        .ok [['d', '/', 'a'], ['d', '/', 'k'], ['d', '/', 'n']] ∧
      ¬ ∀ path, path ∈ [['d', '/', 'a'], ['d', '/', 'k']] ↔
        path ∈ [['d', '/', 'a'], ['d', '/', 'k'], ['d', '/', 'n']] ∧ Direct ['d'] path := by
  have formed : linkedTree.WellFormed := by decide
  have there : linkedTree.isDirectory ['d'] = true := by decide
  obtain ⟨directory, mode, found, way, all, -, -, lists⟩ :=
    flat_listing_agrees_iff formed .all [] true there
  obtain rfl : directory = [['d']] := by
    have same : some (directory, Entry.directory mode) =
        some ([['d']], Entry.directory Tree.directoryMode) := way.symm.trans rfl
    exact congrArg Prod.fst (Option.some.inj same)
  obtain rfl : found = [['d', '/', 'a'], ['d', '/', 'k'], ['d', '/', 'n']] :=
    Except.ok.inj (all.symm.trans rfl)
  refine ⟨⟨formed, there⟩, rfl, rfl, ?_⟩
  intro agree
  have followed := (lists _ rfl).2.mp agree ['d', '/', 'n'] (by decide) ⟨['n'], ['g'], rfl, rfl⟩
  exact absurd followed.2 (by decide)

/-- With links not followed, the listing with all directories below still has both links, and the
listing of the directory alone has none. -/
theorem links_listed_by_one_query :
    (flat ['d'] .all [] false).paths linkedTree = .ok [['d', '/', 'a']] ∧
      (deep ['d'] .all [] false).paths linkedTree =
        .ok [['d', '/', 'a'], ['d', '/', 'k'], ['d', '/', 'n']] ∧
      Direct ['d'] ['d', '/', 'k'] ∧ Direct ['d'] ['d', '/', 'n'] :=
  ⟨rfl, rfl, ⟨['k'], by decide, rfl⟩, ⟨['n'], by decide, rfl⟩⟩

end Query

end Emend
