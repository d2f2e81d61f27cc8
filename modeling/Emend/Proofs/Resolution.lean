import Emend.Proofs.Components
import Emend.Tree

/-!
# Where paths lead

What a path leads to depends on the shape of the tree, that is on its
directories and links, on who may search the directories, and on where its files
are, but not on what the files hold. So a file that gets new contents is found
where it was found before, and so is everything else.

Without links the way to an entry is the list of the components that count, and
an entry is found at the location to which its path leads.
-/

namespace Emend

/-- Whether an entry is a link. -/
def Entry.isLink : Entry → Bool
  | .link _ => true
  | _ => false

/-- An entry without the contents and the permissions of a file. -/
def Entry.shape : Entry → Entry
  | .file _ _ => .file [] 0
  | other => other

/-- What a path leads to, without the contents and permissions of a file. -/
def Resolved.shape : Resolved → Resolved
  | .found location entry => .found location entry.shape
  | .missing directory name => .missing directory name

namespace Tree

/-- What a file system guarantees of a tree: one entry at each location, and
names that an entry can have. -/
structure WellFormed (t : Tree) : Prop where
  unique : (t.entries.map Prod.fst).Nodup
  named : ∀ item ∈ t.entries, ∀ name ∈ item.1, Path.isName name = true

instance (t : Tree) : Decidable t.WellFormed :=
  decidable_of_iff ((t.entries.map Prod.fst).Nodup ∧
      ∀ item ∈ t.entries, ∀ name ∈ item.1, Path.isName name = true)
    ⟨fun both => ⟨both.1, both.2⟩, fun formed => ⟨formed.unique, formed.named⟩⟩

/-- There is no link at any location. -/
def LinkFree (t : Tree) : Prop := ∀ location target, t.entryAt location ≠ some (.link target)

/-- Two trees have the same directories and links, and files at the same
locations. Whoever works on one of them works on the other from the same directory
and under the same permissions. -/
structure SameShape (t u : Tree) : Prop where
  entries : ∀ location,
    (t.entryAt location).map Entry.shape = (u.entryAt location).map Entry.shape
  here : t.here = u.here
  privileged : t.privileged = u.privileged

theorem SameShape.refl (t : Tree) : t.SameShape t := ⟨fun _ => rfl, rfl, rfl⟩

theorem SameShape.symm {t u : Tree} (same : t.SameShape u) : u.SameShape t :=
  ⟨fun location => (same.entries location).symm, same.here.symm, same.privileged.symm⟩

theorem SameShape.grants {t u : Tree} (same : t.SameShape u) (mode : Nat) (access : Access) :
    t.grants mode access = u.grants mode access := by
  rw [Tree.grants, Tree.grants, same.privileged]

theorem SameShape.trans {t u v : Tree} (first : t.SameShape u) (second : u.SameShape v) :
    t.SameShape v :=
  ⟨fun location => (first.entries location).trans (second.entries location),
    first.here.trans second.here, first.privileged.trans second.privileged⟩

theorem mem_of_entryAt {t : Tree} {location : Location} {entry : Entry} (proper : location ≠ [])
    (found : t.entryAt location = some entry) : (location, entry) ∈ t.entries := by
  cases location with
  | nil => exact absurd rfl proper
  | cons name rest =>
    obtain ⟨before, after, split, _⟩ := List.lookup_eq_some_iff.mp found
    rw [split]
    exact List.mem_append_right _ List.mem_cons_self

/-- It suffices to look where the tree lists an entry. -/
theorem linkFree_iff (t : Tree) :
    t.LinkFree ↔ ∀ item ∈ t.entries, (t.entryAt item.1).any Entry.isLink = false := by
  constructor
  · intro linkFree item _
    cases found : t.entryAt item.1 with
    | none => rfl
    | some entry =>
      cases entry with
      | link target => exact absurd found (linkFree item.1 target)
      | file bytes mode => rfl
      | directory mode => rfl
  · intro none location target found
    cases location with
    | nil => cases found
    | cons name rest =>
      have seen := none _ (mem_of_entryAt (by simp) found)
      simp [found, Entry.isLink] at seen

instance (t : Tree) : Decidable t.LinkFree := decidable_of_iff _ (linkFree_iff t).symm

/-- What two trees of the same shape hold at a location. -/
theorem SameShape.cases {t u : Tree} (same : t.SameShape u) (location : Location) :
    (t.entryAt location = none ∧ u.entryAt location = none) ∨
      (∃ mode, t.entryAt location = some (.directory mode) ∧
        u.entryAt location = some (.directory mode)) ∨
      (∃ target, t.entryAt location = some (.link target) ∧
        u.entryAt location = some (.link target)) ∨
      ∃ bytes mode bytes' mode', t.entryAt location = some (.file bytes mode) ∧
        u.entryAt location = some (.file bytes' mode') := by
  have agree := same.entries location
  rcases left : t.entryAt location with _ | ⟨_, _⟩ | _ | _ <;>
    rcases right : u.entryAt location with _ | ⟨_, _⟩ | _ | _ <;>
    simp_all [Entry.shape]

theorem SameShape.linkFree {t u : Tree} (same : t.SameShape u) (linkFree : t.LinkFree) :
    u.LinkFree := by
  intro location target found
  rcases same.cases location with
    ⟨_, none⟩ | ⟨_, _, directory⟩ | ⟨_, link, _⟩ | ⟨_, _, _, _, _, file⟩
  · cases none.symm.trans found
  · cases directory.symm.trans found
  · exact linkFree location _ link
  · cases file.symm.trans found

/-- What stands in the way to a directory is part of the shape. -/
theorem SameShape.barrier {t u : Tree} (same : t.SameShape u) (directory : Location)
    (access : Access) : t.barrier directory access = u.barrier directory access := by
  rcases same.cases directory with
    ⟨left, right⟩ | ⟨_, left, right⟩ | ⟨_, left, right⟩ | ⟨_, _, _, _, left, right⟩ <;>
    simp [Tree.barrier, same.grants, left, right]

theorem lookup_cons_ite (location other : Location) (entry : Entry)
    (entries : List (Location × Entry)) :
    ((other, entry) :: entries).lookup location =
      if location = other then some entry else entries.lookup location := by
  by_cases same : location = other
  · simp [same]
  · rw [List.lookup_cons, beq_eq_false_iff_ne.mpr same, if_neg same]

/-- Replacing the entry at one location shows at that location only, and only
if it is there. -/
theorem lookup_map_replaced (location other : Location) (entry : Entry)
    (entries : List (Location × Entry)) :
    (entries.map fun (l, e) => if l = location then (l, entry) else (l, e)).lookup other =
      if other = location then (entries.lookup other).map fun _ => entry
      else entries.lookup other := by
  induction entries with
  | nil => simp
  | cons item items inductionHypothesis =>
    obtain ⟨l, e⟩ := item
    rw [List.map_cons, lookup_cons_ite]
    by_cases here : l = location
    · simp only [here, if_true, lookup_cons_ite, inductionHypothesis]
      split <;> rfl
    · simp only [here, if_false, lookup_cons_ite, inductionHypothesis]
      split
      · rename_i same
        rw [if_neg (fun equal => here (same.symm.trans equal))]
      · rfl

/-- Nothing is replaced where there is nothing. -/
theorem map_replaced_of_absent {location : Location} {entries : List (Location × Entry)}
    (absent : entries.lookup location = none) (entry : Entry) :
    (entries.map fun (l, e) => if l = location then (l, entry) else (l, e)) = entries := by
  induction entries with
  | nil => rfl
  | cons item items inductionHypothesis =>
    obtain ⟨l, e⟩ := item
    rw [lookup_cons_ite] at absent
    split at absent
    · cases absent
    · rename_i apart
      rw [List.map_cons, inductionHypothesis absent]
      simp [Ne.symm apart]

@[simp] theorem put_here (t : Tree) (location : Location) (entry : Entry) :
    (t.put location entry).here = t.here := by
  rw [put]
  split <;> rfl

@[simp] theorem put_privileged (t : Tree) (location : Location) (entry : Entry) :
    (t.put location entry).privileged = t.privileged := by
  rw [put]
  split <;> rfl

@[simp] theorem put_top (t : Tree) (location : Location) (entry : Entry) :
    (t.put location entry).top = t.top := by
  rw [put]
  split <;> rfl

/-- The entries of a tree after one of them has been put in place. -/
theorem entryAt_put (t : Tree) {location : Location} (proper : location ≠ []) (entry : Entry)
    (other : Location) :
    (t.put location entry).entryAt other =
      if other = location then some entry else t.entryAt other := by
  cases other with
  | nil =>
    rw [if_neg (Ne.symm proper), entryAt, put_top]
    rfl
  | cons name rest =>
    rw [put]
    split
    · rename_i present
      change List.lookup _ (t.entries.map _) = _
      rw [lookup_map_replaced]
      split
      · rename_i same
        obtain ⟨old, found⟩ := Option.isSome_iff_exists.mp present
        rw [same, found]
        rfl
      · rfl
    · rename_i absent
      have none : t.entries.lookup location = none := by
        simpa only [Option.not_isSome_iff_eq_none] using absent
      change (t.entries ++ [(location, entry)]).lookup (name :: rest) = _
      rw [List.lookup_append, lookup_cons_ite]
      split
      · rename_i same
        rw [same, none]
        rfl
      · exact Option.or_none

/-- A file does not lie at the top. -/
theorem ne_nil_of_file {t : Tree} {location : Location} {bytes : List UInt8} {mode : Nat}
    (found : t.entryAt location = some (.file bytes mode)) : location ≠ [] := by
  rintro rfl
  cases found

/-- A file that takes the place of a file leaves the shape of the tree. -/
theorem sameShape_put {t : Tree} {location : Location} {oldBytes newBytes : List UInt8}
    {oldMode newMode : Nat} (found : t.entryAt location = some (.file oldBytes oldMode)) :
    t.SameShape (t.put location (.file newBytes newMode)) := by
  refine ⟨?_, by simp, by simp⟩
  intro other
  rw [entryAt_put t (ne_nil_of_file found)]
  split
  · rename_i same
    rw [same, found]
    rfl
  · rfl

/-- Names lead to the same in trees of the same shape, up to what files hold,
if links do. -/
theorem resolveFrom_shape {t u : Tree} (same : t.SameShape u) (follow : Bool)
    {onLink onLink' : Location → List Text → Except FileFault Resolved}
    (links : ∀ directory names,
      (onLink directory names).map Resolved.shape = (onLink' directory names).map Resolved.shape)
    (directory : Location) (names : List Text) :
    (t.resolveFrom follow onLink directory names).map Resolved.shape =
      (u.resolveFrom follow onLink' directory names).map Resolved.shape := by
  induction names generalizing directory with
  | nil =>
    simp only [resolveFrom]
    rcases same.cases directory with
      ⟨left, right⟩ | ⟨_, left, right⟩ | ⟨_, left, right⟩ | ⟨_, _, _, _, left, right⟩ <;>
      simp only [left, right]
  | cons name rest inductionHypothesis =>
    simp only [resolveFrom, same.barrier]
    split
    · exact inductionHypothesis directory
    split
    · rfl
    split
    · exact inductionHypothesis directory
    split
    · exact inductionHypothesis directory.dropLast
    split
    · rfl
    rcases same.cases (directory ++ [name]) with
      ⟨left, right⟩ | ⟨_, left, right⟩ | ⟨_, left, right⟩ | ⟨_, _, _, _, left, right⟩
    · simp only [left, right]
    · simp only [left, right]
      exact inductionHypothesis _
    · simp only [left, right]
      split
      · rfl
      · exact links _ _
    · simp only [left, right]
      split <;> rfl

theorem resolveNames_shape {t u : Tree} (same : t.SameShape u) (follow : Bool) (links : Nat)
    (directory : Location) (names : List Text) :
    (t.resolveNames follow links directory names).map Resolved.shape =
      (u.resolveNames follow links directory names).map Resolved.shape := by
  induction links generalizing directory names with
  | zero => rfl
  | succ links inductionHypothesis =>
    exact resolveFrom_shape same follow inductionHypothesis directory names

/-- A path leads to the same location in a tree of the same shape. -/
theorem resolve_of_sameShape {t u : Tree} (same : t.SameShape u) {follow : Bool} {path : Text}
    {location : Location} {entry : Entry}
    (found : t.resolve follow path = .ok (.found location entry)) :
    ∃ entry', u.resolve follow path = .ok (.found location entry') ∧
      entry'.shape = entry.shape := by
  have agree : (t.resolve follow path).map Resolved.shape =
      (u.resolve follow path).map Resolved.shape := by
    simp only [resolve, same.here]
    split
    · rfl
    split
    · rfl
    · exact resolveNames_shape same follow linkLimit _ _
  rw [found] at agree
  cases other : u.resolve follow path with
  | error fault =>
    rw [other] at agree
    cases agree
  | ok resolved =>
    rw [other] at agree
    cases resolved with
    | missing directory name => cases agree
    | found location' entry' =>
      have parts := Except.ok.inj agree
      simp only [Resolved.shape, Resolved.found.injEq] at parts
      exact ⟨entry', by rw [parts.1], parts.2.symm⟩

/-- Nothing stands in the way to a directory whose permissions grant the access. -/
theorem barrier_eq_none_iff {t : Tree} {directory : Location} {access : Access} :
    t.barrier directory access = none ↔
      ∃ mode, t.entryAt directory = some (.directory mode) ∧ t.grants mode access = true := by
  rw [barrier]
  rcases t.entryAt directory with _ | ⟨_, _⟩ | mode | _
  · simp
  · simp
  · cases t.grants mode access <;> simp
  · simp

/-- Names may be looked up in a directory. -/
def Searchable (t : Tree) (directory : Location) : Prop := t.barrier directory .search = none

/-- Two trees are alike but for what lies in one place. -/
structure AlikeBut (t u : Tree) (place : Location) : Prop where
  elsewhere : ∀ other, other ≠ place → u.entryAt other = t.entryAt other
  here : u.here = t.here
  privileged : u.privileged = t.privileged

theorem alikeBut_put (t : Tree) {place : Location} (proper : place ≠ []) (entry : Entry) :
    t.AlikeBut (t.put place entry) place where
  elsewhere other apart := by rw [entryAt_put t proper, if_neg apart]
  here := put_here ..
  privileged := put_privileged ..

theorem AlikeBut.symm {t u : Tree} {place : Location} (alike : t.AlikeBut u place) :
    u.AlikeBut t place :=
  ⟨fun other apart => (alike.elsewhere other apart).symm, alike.here.symm, alike.privileged.symm⟩

theorem AlikeBut.grants {t u : Tree} {place : Location} (alike : t.AlikeBut u place) (mode : Nat)
    (access : Access) : u.grants mode access = t.grants mode access := by
  rw [Tree.grants, Tree.grants, alike.privileged]

/-- Other directories are accessed as before. -/
theorem AlikeBut.barrier {t u : Tree} {place directory : Location} (alike : t.AlikeBut u place)
    (apart : directory ≠ place) (access : Access) :
    u.barrier directory access = t.barrier directory access := by
  simp only [Tree.barrier, alike.elsewhere _ apart, alike.grants]

/-- A directory that may be accessed is not in the place where the trees differ, if there is no
directory in that place. -/
theorem AlikeBut.barrier_eq_none {t u : Tree} {place directory : Location}
    (alike : t.AlikeBut u place) (noDirectory : ∀ mode, t.entryAt place ≠ some (.directory mode))
    {access : Access} (accessed : t.barrier directory access = none) :
    u.barrier directory access = none := by
  rw [alike.barrier _ access, accessed]
  rintro rfl
  obtain ⟨mode, there, -⟩ := barrier_eq_none_iff.mp accessed
  exact noDirectory mode there

/-- A name that leads down from a directory. -/
def Plain (name : Text) : Prop :=
  Path.isIdle name = false ∧ name ≠ ['.', '.'] ∧ Path.isLongName name = false

theorem Plain.ne_nil {name : Text} (plain : Plain name) : name ≠ [] := by
  rintro rfl
  cases plain.1

theorem Plain.ne_point {name : Text} (plain : Plain name) : name ≠ ['.'] := by
  rintro rfl
  cases plain.1

theorem plain_of_isName {name : Text} (named : Path.isName name = true) : Plain name := by
  obtain ⟨counts, notUp, -, short⟩ := (Path.isName_iff name).mp named
  exact ⟨counts, notUp, short⟩

section Names

variable {t : Tree} {follow : Bool} {onLink : Location → List Text → Except FileFault Resolved}
  {directory : Location} {name : Text} {rest : List Text} {result : Resolved}

theorem resolveFrom_nil_iff :
    t.resolveFrom follow onLink directory [] = .ok result ↔
      ∃ mode, t.entryAt directory = some (.directory mode) ∧
        result = .found directory (.directory mode) := by
  rw [resolveFrom]
  rcases t.entryAt directory with _ | ⟨_, _⟩ | mode | _ <;> simp [eq_comm]

theorem resolveFrom_point (searchable : t.Searchable directory) :
    t.resolveFrom follow onLink directory (['.'] :: rest) =
      t.resolveFrom follow onLink directory rest := by
  rw [resolveFrom, if_neg (by simp), searchable]
  rfl

theorem resolveFrom_up (searchable : t.Searchable directory) :
    t.resolveFrom follow onLink directory (['.', '.'] :: rest) =
      t.resolveFrom follow onLink directory.dropLast rest := by
  rw [resolveFrom, if_neg (by simp), searchable]
  rfl

/-- A name that leads down is looked up among the entries of its directory. It may be missing only
at the end. -/
theorem resolveFrom_absent (plain : Plain name) (searchable : t.Searchable directory)
    (absent : t.entryAt (directory ++ [name]) = none) :
    t.resolveFrom follow onLink directory (name :: rest) =
      if rest.isEmpty then .ok (.missing directory name) else .error .notFound := by
  rw [resolveFrom, if_neg plain.ne_nil, searchable]
  simp only [plain.ne_point, plain.2.1, plain.2.2, if_false, Bool.false_eq_true, absent]

theorem resolveFrom_directory (plain : Plain name) (searchable : t.Searchable directory)
    {mode : Nat} (next : t.entryAt (directory ++ [name]) = some (.directory mode)) :
    t.resolveFrom follow onLink directory (name :: rest) =
      t.resolveFrom follow onLink (directory ++ [name]) rest := by
  rw [resolveFrom, if_neg plain.ne_nil, searchable]
  simp only [plain.ne_point, plain.2.1, plain.2.2, if_false, Bool.false_eq_true, next]

/-- Nothing can follow a file. -/
theorem resolveFrom_file (plain : Plain name) (searchable : t.Searchable directory)
    {bytes : List UInt8} {mode : Nat}
    (last : t.entryAt (directory ++ [name]) = some (.file bytes mode)) :
    t.resolveFrom follow onLink directory (name :: rest) =
      if rest.isEmpty then .ok (.found (directory ++ [name]) (.file bytes mode))
      else .error .notDirectory := by
  rw [resolveFrom, if_neg plain.ne_nil, searchable]
  simp only [plain.ne_point, plain.2.1, plain.2.2, if_false, Bool.false_eq_true, last]

theorem resolveFrom_link (plain : Plain name) (searchable : t.Searchable directory)
    {target : Text} (next : t.entryAt (directory ++ [name]) = some (.link target)) :
    t.resolveFrom true onLink directory (name :: rest) =
      onLink (Path.base directory target) (target.splitAt '/' ++ rest) := by
  rw [resolveFrom, if_neg plain.ne_nil, searchable]
  simp only [plain.ne_point, plain.2.1, plain.2.2, if_false, Bool.false_eq_true, next,
    Bool.not_true, Bool.and_false]

/-- How the first name of a way that ends somewhere is taken. Every name but the empty one is
looked up in its directory. -/
inductive Takes (t : Tree) (onLink : Location → List Text → Except FileFault Resolved)
    (directory : Location) (name : Text) (rest : List Text) (result : Resolved) : Prop where
  | empty (silent : name = []) (onward : t.resolveFrom true onLink directory rest = .ok result)
  | point (silent : name = ['.']) (searchable : t.Searchable directory)
      (onward : t.resolveFrom true onLink directory rest = .ok result)
  | up (points : name = ['.', '.']) (searchable : t.Searchable directory)
      (onward : t.resolveFrom true onLink directory.dropLast rest = .ok result)
  | down (plain : Plain name) (searchable : t.Searchable directory) {mode : Nat}
      (next : t.entryAt (directory ++ [name]) = some (.directory mode))
      (onward : t.resolveFrom true onLink (directory ++ [name]) rest = .ok result)
  | file (plain : Plain name) (searchable : t.Searchable directory) {bytes : List UInt8}
      {mode : Nat} (last : t.entryAt (directory ++ [name]) = some (.file bytes mode))
      (alone : rest = []) (ended : result = .found (directory ++ [name]) (.file bytes mode))
  | missing (plain : Plain name) (searchable : t.Searchable directory)
      (absent : t.entryAt (directory ++ [name]) = none) (alone : rest = [])
      (ended : result = .missing directory name)
  | link (plain : Plain name) (searchable : t.Searchable directory) {target : Text}
      (next : t.entryAt (directory ++ [name]) = some (.link target))
      (onward : onLink (Path.base directory target) (target.splitAt '/' ++ rest) = .ok result)

theorem resolveFrom_cons_iff :
    t.resolveFrom true onLink directory (name :: rest) = .ok result ↔
      t.Takes onLink directory name rest result := by
  constructor
  · intro found
    by_cases empty : name = []
    · rw [resolveFrom, if_pos empty] at found
      exact .empty empty found
    cases searchable : t.barrier directory .search with
    | some fault =>
      rw [resolveFrom, if_neg empty, searchable] at found
      cases found
    | none =>
      by_cases point : name = ['.']
      · subst point
        exact .point rfl searchable (resolveFrom_point searchable ▸ found)
      by_cases points : name = ['.', '.']
      · subst points
        exact .up rfl searchable (resolveFrom_up searchable ▸ found)
      cases long : Path.isLongName name with
      | true => simp [resolveFrom, empty, searchable, point, points, long] at found
      | false =>
        have plain : Plain name := ⟨by simp [Path.isIdle, empty, point], points, long⟩
        rcases next : t.entryAt (directory ++ [name]) with _ | ⟨bytes, mode⟩ | mode | target
        · rw [resolveFrom_absent plain searchable next] at found
          split at found
          · rename_i alone
            cases found
            exact .missing plain searchable next (List.isEmpty_iff.mp alone) rfl
          · cases found
        · rw [resolveFrom_file plain searchable next] at found
          split at found
          · rename_i alone
            cases found
            exact .file plain searchable next (List.isEmpty_iff.mp alone) rfl
          · cases found
        · exact .down plain searchable next (resolveFrom_directory plain searchable next ▸ found)
        · rw [resolveFrom_link plain searchable next] at found
          exact .link plain searchable next found
  · intro takes
    cases takes with
    | empty silent onward => rwa [resolveFrom, if_pos silent]
    | point silent searchable onward => rwa [silent, resolveFrom_point searchable]
    | up points searchable onward => rwa [points, resolveFrom_up searchable]
    | down plain searchable next onward => rwa [resolveFrom_directory plain searchable next]
    | file plain searchable last alone ended =>
      rw [resolveFrom_file plain searchable last, alone, ended]
      rfl
    | missing plain searchable absent alone ended =>
      rw [resolveFrom_absent plain searchable absent, alone, ended]
      rfl
    | link plain searchable next onward => rwa [resolveFrom_link plain searchable next]

end Names

section Idle

variable {t : Tree} {onLink : Location → List Text → Except FileFault Resolved}
  {directory : Location} {result : Resolved}

/-- Components that say nothing may be left out of a way, if they may be left out after each
link. What stands before them there is what the link has led to. -/
theorem resolveFrom_filter_idle
    (links : ∀ start front names, onLink start (front ++ names) = .ok result →
      onLink start (front ++ names.filter fun name => !Path.isIdle name) = .ok result)
    {names : List Text} (found : t.resolveFrom true onLink directory names = .ok result) :
    t.resolveFrom true onLink directory (names.filter fun name => !Path.isIdle name) =
      .ok result := by
  induction names generalizing directory with
  | nil => exact found
  | cons name rest inductionHypothesis =>
    cases resolveFrom_cons_iff.mp found with
    | empty silent onward => exact silent ▸ inductionHypothesis onward
    | point silent searchable onward => exact silent ▸ inductionHypothesis onward
    | up points searchable onward =>
      subst points
      exact resolveFrom_cons_iff.mpr (.up rfl searchable (inductionHypothesis onward))
    | down plain searchable next onward =>
      rw [List.filter_cons_of_pos (by simp [plain.1]), resolveFrom_cons_iff]
      exact .down plain searchable next (inductionHypothesis onward)
    | file plain searchable last alone ended =>
      rw [List.filter_cons_of_pos (by simp [plain.1]), resolveFrom_cons_iff, alone]
      exact .file plain searchable last rfl ended
    | missing plain searchable absent alone ended =>
      rw [List.filter_cons_of_pos (by simp [plain.1]), resolveFrom_cons_iff, alone]
      exact .missing plain searchable absent rfl ended
    | link plain searchable next onward =>
      rw [List.filter_cons_of_pos (by simp [plain.1]), resolveFrom_cons_iff]
      exact .link plain searchable next (links _ _ rest onward)

/-- Likewise out of a later part of a way. -/
theorem resolveFrom_append_filter_idle
    (links : ∀ start front names, onLink start (front ++ names) = .ok result →
      onLink start (front ++ names.filter fun name => !Path.isIdle name) = .ok result)
    {front names : List Text}
    (found : t.resolveFrom true onLink directory (front ++ names) = .ok result) :
    t.resolveFrom true onLink directory
      (front ++ names.filter fun name => !Path.isIdle name) = .ok result := by
  induction front generalizing directory with
  | nil => exact resolveFrom_filter_idle links found
  | cons first front inductionHypothesis =>
    rw [List.cons_append] at found ⊢
    rw [resolveFrom_cons_iff]
    cases resolveFrom_cons_iff.mp found with
    | empty silent onward => exact .empty silent (inductionHypothesis onward)
    | point silent searchable onward =>
      exact .point silent searchable (inductionHypothesis onward)
    | up points searchable onward => exact .up points searchable (inductionHypothesis onward)
    | down plain searchable next onward =>
      exact .down plain searchable next (inductionHypothesis onward)
    | file plain searchable last alone ended =>
      obtain ⟨rfl, rfl⟩ := List.append_eq_nil_iff.mp alone
      exact .file plain searchable last rfl ended
    | missing plain searchable absent alone ended =>
      obtain ⟨rfl, rfl⟩ := List.append_eq_nil_iff.mp alone
      exact .missing plain searchable absent rfl ended
    | link plain searchable next onward =>
      rw [← List.append_assoc] at onward
      have further := links _ _ names onward
      rw [List.append_assoc] at further
      exact .link plain searchable next further

/-- So components that say nothing may be left out for any number of links. -/
theorem resolveNames_filter_idle {links : Nat} (front names : List Text)
    (found : t.resolveNames true links directory (front ++ names) = .ok result) :
    t.resolveNames true links directory
      (front ++ names.filter fun name => !Path.isIdle name) = .ok result := by
  induction links generalizing directory front names with
  | zero => cases found
  | succ links inductionHypothesis =>
    exact resolveFrom_append_filter_idle (fun _ => inductionHypothesis) found

end Idle

/-- Empty components may be put in front. -/
theorem resolveNames_after_empty {t : Tree} {links : Nat} {directory : Location}
    {names : List Text} {result : Resolved}
    (found : t.resolveNames true links directory names = .ok result) (count : Nat) :
    t.resolveNames true links directory (List.replicate count [] ++ names) = .ok result := by
  cases links with
  | zero => cases found
  | succ links =>
    induction count with
    | zero => exact found
    | succ count inductionHypothesis =>
      exact resolveFrom_cons_iff.mpr (.empty rfl inductionHypothesis)

/-- What a path leads to is what its components lead to, from where the path is read. -/
theorem resolveNames_parts {t : Tree} {path : Text} {result : Resolved}
    (found : t.resolve true path = .ok result) :
    t.resolveNames true linkLimit (Path.base t.here path) (Path.parts path) = .ok result := by
  simp only [resolve] at found
  split at found
  · cases found
  split at found
  · cases found
  exact resolveNames_filter_idle [] _ found

/-- A path to a file names it. -/
theorem parts_ne_nil {t : Tree} {path : Text} {location : Location} {bytes : List UInt8}
    {mode : Nat} (found : t.resolve true path = .ok (.found location (.file bytes mode))) :
    Path.parts path ≠ [] := by
  intro none
  have way := resolveNames_parts found
  rw [none] at way
  obtain ⟨_, _, same⟩ := resolveFrom_nil_iff.mp way
  cases same

/-- The normal form of a path leads to the file that the path leads to, unless it is refused for
its length. -/
theorem probe_normalize {t : Tree} {path : Text} {location : Location} {bytes : List UInt8}
    {mode : Nat} {probed : Option Entry}
    (found : t.resolve true path = .ok (.found location (.file bytes mode)))
    (answered : t.probe (Path.normalize path) = .ok probed) :
    probed = some (.file bytes mode) := by
  obtain ⟨proper, same, count, cut⟩ := Path.normalize_components (parts_ne_nil found)
  cases length : Path.isLong (Path.normalize path) with
  | false =>
    have resolved : t.resolve true (Path.normalize path) =
        .ok (.found location (.file bytes mode)) := by
      simp only [resolve, length, proper, same, cut]
      exact resolveNames_after_empty (resolveNames_parts found) count
    rw [probe, resolved] at answered
    exact (Except.ok.inj answered).symm
  | true =>
    have refused : t.resolve true (Path.normalize path) = .error .nameTooLong := by
      simp [resolve, length]
    rw [probe, refused] at answered
    cases answered

/-- Names lead from a directory to an entry, over no link. A file is reached by
the last name only, and a directory also by a name that says nothing. -/
inductive Leads (t : Tree) : Location → List Text → Location → Entry → Prop where
  | here {directory : Location} {mode : Nat}
      (found : t.entryAt directory = some (.directory mode)) :
      Leads t directory [] directory (.directory mode)
  | empty {directory location : Location} {rest : List Text} {entry : Entry}
      (way : Leads t directory rest location entry) : Leads t directory ([] :: rest) location entry
  | point {directory location : Location} {rest : List Text} {entry : Entry}
      (searchable : t.Searchable directory) (way : Leads t directory rest location entry) :
      Leads t directory (['.'] :: rest) location entry
  | up {directory location : Location} {rest : List Text} {entry : Entry}
      (searchable : t.Searchable directory) (way : Leads t directory.dropLast rest location entry) :
      Leads t directory (['.', '.'] :: rest) location entry
  | down {directory location : Location} {name : Text} {rest : List Text} {entry : Entry}
      (plain : Plain name) (searchable : t.Searchable directory) {mode : Nat}
      (next : t.entryAt (directory ++ [name]) = some (.directory mode))
      (way : Leads t (directory ++ [name]) rest location entry) :
      Leads t directory (name :: rest) location entry
  | file {directory : Location} {name : Text} {bytes : List UInt8} {mode : Nat}
      (plain : Plain name) (searchable : t.Searchable directory)
      (last : t.entryAt (directory ++ [name]) = some (.file bytes mode)) :
      Leads t directory [name] (directory ++ [name]) (.file bytes mode)

/-- Without links, resolution finds what names lead to. -/
theorem resolveFrom_eq_found_iff {t : Tree} (linkFree : t.LinkFree)
    (onLink : Location → List Text → Except FileFault Resolved) (directory location : Location)
    (names : List Text) (entry : Entry) :
    t.resolveFrom true onLink directory names = .ok (.found location entry) ↔
      Leads t directory names location entry := by
  constructor
  · intro found
    induction names generalizing directory with
    | nil =>
      obtain ⟨mode, there, same⟩ := resolveFrom_nil_iff.mp found
      cases same
      exact .here there
    | cons name rest inductionHypothesis =>
      cases resolveFrom_cons_iff.mp found with
      | empty silent onward => exact silent ▸ .empty (inductionHypothesis _ onward)
      | point silent searchable onward =>
        exact silent ▸ .point searchable (inductionHypothesis _ onward)
      | up points searchable onward => exact points ▸ .up searchable (inductionHypothesis _ onward)
      | down plain searchable next onward =>
        exact .down plain searchable next (inductionHypothesis _ onward)
      | file plain searchable last alone ended =>
        cases ended
        exact alone ▸ .file plain searchable last
      | missing plain searchable absent alone ended => cases ended
      | link plain searchable next onward => exact absurd next (linkFree _ _)
  · intro way
    induction way with
    | here found => exact resolveFrom_nil_iff.mpr ⟨_, found, rfl⟩
    | empty way inductionHypothesis =>
      exact resolveFrom_cons_iff.mpr (.empty rfl inductionHypothesis)
    | point searchable way inductionHypothesis =>
      exact resolveFrom_cons_iff.mpr (.point rfl searchable inductionHypothesis)
    | up searchable way inductionHypothesis =>
      exact resolveFrom_cons_iff.mpr (.up rfl searchable inductionHypothesis)
    | down plain searchable next way inductionHypothesis =>
      exact resolveFrom_cons_iff.mpr (.down plain searchable next inductionHypothesis)
    | file plain searchable last =>
      exact resolveFrom_cons_iff.mpr (.file plain searchable last rfl rfl)

namespace Leads

variable {t : Tree} {directory inner location : Location} {names : List Text} {entry : Entry}
  {mode : Nat}

/-- What names lead to is the entry that the tree has at that location. -/
theorem entryAt_eq (way : Leads t directory names location entry) :
    t.entryAt location = some entry := by
  induction way with
  | here found => exact found
  | empty way inductionHypothesis => exact inductionHypothesis
  | point searchable way inductionHypothesis => exact inductionHypothesis
  | up searchable way inductionHypothesis => exact inductionHypothesis
  | down plain searchable next way inductionHypothesis => exact inductionHypothesis
  | file plain searchable last => exact last

/-- A way goes on from the directory that its first part leads to. -/
theorem resolveFrom_append (way : Leads t directory names inner (.directory mode)) (follow : Bool)
    (onLink : Location → List Text → Except FileFault Resolved) (more : List Text) :
    t.resolveFrom follow onLink directory (names ++ more) =
      t.resolveFrom follow onLink inner more := by
  generalize reached : Entry.directory mode = kind at way
  induction way with
  | here found => rfl
  | empty way inductionHypothesis =>
    rw [List.cons_append, resolveFrom, if_pos rfl]
    exact inductionHypothesis reached
  | point searchable way inductionHypothesis =>
    rw [List.cons_append, resolveFrom_point searchable]
    exact inductionHypothesis reached
  | up searchable way inductionHypothesis =>
    rw [List.cons_append, resolveFrom_up searchable]
    exact inductionHypothesis reached
  | down plain searchable next way inductionHypothesis =>
    rw [List.cons_append, resolveFrom_directory plain searchable next]
    exact inductionHypothesis reached
  | file plain searchable last => cases reached

/-- After a way to a directory, the names that are left lead on from there. -/
theorem of_append (way : Leads t directory names inner (.directory mode)) (linkFree : t.LinkFree)
    {more : List Text} (whole : Leads t directory (names ++ more) location entry) :
    Leads t inner more location entry := by
  have found := (resolveFrom_eq_found_iff linkFree (fun _ _ => .error .notFound)
    directory location (names ++ more) entry).mpr whole
  rw [way.resolveFrom_append] at found
  exact (resolveFrom_eq_found_iff linkFree _ inner location more entry).mp found

/-- Plain names lead to the location that they spell. -/
theorem plain_names (way : Leads t directory names location entry)
    (plain : ∀ name ∈ names, Plain name) : location = directory ++ names := by
  induction way with
  | here found => simp
  | empty way inductionHypothesis => exact absurd rfl (plain _ List.mem_cons_self).ne_nil
  | point searchable way inductionHypothesis =>
    exact absurd rfl (plain _ List.mem_cons_self).ne_point
  | up searchable way inductionHypothesis => exact absurd rfl (plain _ List.mem_cons_self).2.1
  | down goes searchable next way inductionHypothesis =>
    rw [inductionHypothesis fun name member => plain name (List.mem_cons_of_mem _ member)]
    simp
  | file goes searchable last => rfl

/-- The way to a file ends with its name, below the directory that the rest of
the way leads to. -/
theorem file_split {bytes : List UInt8}
    (way : Leads t directory names location (.file bytes mode)) :
    ∃ outer name inner mode, names = outer ++ [name] ∧ location = inner ++ [name] ∧ Plain name ∧
      Leads t directory outer inner (.directory mode) := by
  generalize reached : Entry.file bytes mode = kind at way
  induction way with
  | here found => cases reached
  | empty way inductionHypothesis =>
    obtain ⟨outer, last, inner, mode, rfl, same, plain, before⟩ := inductionHypothesis reached
    exact ⟨_ :: outer, last, inner, mode, rfl, same, plain, .empty before⟩
  | point searchable way inductionHypothesis =>
    obtain ⟨outer, last, inner, mode, rfl, same, plain, before⟩ := inductionHypothesis reached
    exact ⟨_ :: outer, last, inner, mode, rfl, same, plain, .point searchable before⟩
  | up searchable way inductionHypothesis =>
    obtain ⟨outer, last, inner, mode, rfl, same, plain, before⟩ := inductionHypothesis reached
    exact ⟨_ :: outer, last, inner, mode, rfl, same, plain, .up searchable before⟩
  | @down directory location name rest entry goes searchable _ next way inductionHypothesis =>
    obtain ⟨outer, last, inner, mode, rfl, same, plain, before⟩ := inductionHypothesis reached
    exact ⟨name :: outer, last, inner, mode, rfl, same, plain, .down goes searchable next before⟩
  | @file directory name bytes _ plain searchable last =>
    obtain ⟨mode, there, -⟩ := barrier_eq_none_iff.mp searchable
    exact ⟨[], name, directory, mode, rfl, rfl, plain, .here there⟩

end Leads

/-- Where a path leads without links: its components, from where it is read. -/
theorem leads_of_resolve {t : Tree} (linkFree : t.LinkFree) {path : Text} {location : Location}
    {entry : Entry} (found : t.resolve true path = .ok (.found location entry)) :
    Leads t (Path.base t.here path) (Path.parts path) location entry :=
  (resolveFrom_eq_found_iff linkFree _ _ location _ entry).mp (resolveNames_parts found)

/-- A directory that names lead to is found. -/
theorem directoryAt_of_leads {t : Tree} (linkFree : t.LinkFree) {start directory : Location}
    {names : List Text} {mode : Nat} (way : Leads t start names directory (.directory mode)) :
    t.directoryAt start names = .ok directory := by
  have found : t.resolveNames true linkLimit start names =
      .ok (.found directory (.directory mode)) :=
    (resolveFrom_eq_found_iff linkFree _ start directory names _).mpr way
  simp only [directoryAt, found]
  rfl

/-- The entry that a path leads to lies at the location that it leads to. -/
theorem entryAt_of_resolve {t : Tree} (linkFree : t.LinkFree) {path : Text} {location : Location}
    {entry : Entry} (found : t.resolve true path = .ok (.found location entry)) :
    t.entryAt location = some entry :=
  (leads_of_resolve linkFree found).entryAt_eq

/-- What is read are the bytes of a file that may be read. -/
theorem read_eq_ok_iff {t : Tree} {path : Text} {bytes : List UInt8} :
    t.read path = .ok bytes ↔
      ∃ location mode, t.resolve true path = .ok (.found location (.file bytes mode)) ∧
        t.grants mode .read = true := by
  constructor
  · intro read
    obtain ⟨resolved, found, entry⟩ := bind_eq_ok read
    split at entry
    · rename_i location bytes' mode
      split at entry
      · rename_i granted
        cases entry
        exact ⟨location, mode, found, granted⟩
      · cases entry
    · cases entry
    · cases entry
  · rintro ⟨location, mode, found, granted⟩
    rw [read, found]
    exact if_pos granted

end Tree

end Emend
