import Emend.Proofs.CodePoints
import Emend.Proofs.Resolution
import Emend.Tree.Replace
import Mathlib.Data.List.Nodup
import Mathlib.Data.List.Perm.Subperm

/-!
# A file that is replaced

A temporary file stands in a place where nothing was. Next to it every path leads where
it led before, unless it ends at that very place or goes on behind it; no directory is
found otherwise. So the permissions that the temporary file gets and the directory into
which it is moved are those of the tree without it.

At the end there is one new file and no other change, or there is no change at all: what
is refused while there is a temporary file ends with its removal. So is a text that has no
bytes, which is found out when the temporary file is filled. A null character in the path
may be met before the temporary file is made or only when it is moved; both come to the
same.
-/

namespace Emend

namespace Tree

section Entries

variable {t : Tree} {location : Location}

theorem ne_nil_of_absent (absent : t.entryAt location = none) : location ≠ [] := by
  rintro rfl
  cases absent

theorem lookup_of_absent (absent : t.entryAt location = none) :
    t.entries.lookup location = none := by
  cases location with
  | nil => cases absent
  | cons name rest => exact absent

/-- An entry that is put where nothing was comes last. -/
theorem put_of_absent (absent : t.entryAt location = none) (entry : Entry) :
    t.put location entry = { t with entries := t.entries ++ [(location, entry)] } := by
  rw [put, lookup_of_absent absent]
  rfl

/-- What was put where nothing was can be taken away without a trace. -/
theorem erase_put (absent : t.entryAt location = none) (entry : Entry) :
    (t.put location entry).erase location = t := by
  have others : (t.entries.filter fun item => decide (item.1 ≠ location)) = t.entries := by
    rw [List.filter_eq_self]
    intro item member
    have apart : location ≠ item.1 := by
      simpa using List.lookup_eq_none_iff.mp (lookup_of_absent absent) item member
    simpa using apart.symm
  rw [put_of_absent absent, erase, List.filter_append, others]
  simp

/-- What was put where nothing was can be put there again in another form. -/
theorem put_put (absent : t.entryAt location = none) (entry entry' : Entry) :
    (t.put location entry).put location entry' = t.put location entry' := by
  have present : ((t.entries ++ [(location, entry)]).lookup location).isSome := by
    simp [List.lookup_append, lookup_of_absent absent]
  rw [put_of_absent absent, put_of_absent absent, put, if_pos present, List.map_append,
    map_replaced_of_absent (lookup_of_absent absent)]
  simp

end Entries

/-- An entry is in a place where nothing was; all else is as before. -/
structure Added (t : Tree) (location : Location) (entry : Entry) (u : Tree) : Prop
    extends AlikeBut t u location where
  absent : t.entryAt location = none
  present : u.entryAt location = some entry

theorem added_put {t : Tree} {location : Location} (absent : t.entryAt location = none)
    (entry : Entry) : t.Added location entry (t.put location entry) where
  toAlikeBut := alikeBut_put t (ne_nil_of_absent absent) entry
  absent := absent
  present := by rw [entryAt_put t (ne_nil_of_absent absent), if_pos rfl]

section Beside

variable {t u : Tree} {place : Location} {bytes : List UInt8} {mode : Nat}

/-- A new file is no directory, so the directories that may be accessed are those of before. -/
theorem Added.barrier_eq_none_iff (added : t.Added place (.file bytes mode) u)
    {directory : Location} {access : Access} :
    u.barrier directory access = none ↔ t.barrier directory access = none :=
  ⟨added.toAlikeBut.symm.barrier_eq_none (by simp [added.present]),
    added.toAlikeBut.barrier_eq_none (by simp [added.absent])⟩

/-- How what names lead to changes by a new file: not at all, or they ended in the place
of the file and now find it, or they went on behind that place and are now stopped by
the file. -/
inductive Beside (place : Location) (file : Entry) :
    Except FileFault Resolved → Except FileFault Resolved → Prop where
  | same (result : Except FileFault Resolved) : Beside place file result result
  | reached {directory : Location} {name : Text} (here : directory ++ [name] = place) :
      Beside place file (.ok (.missing directory name)) (.ok (.found place file))
  | blocked : Beside place file (.error .notFound) (.error .notDirectory)

/-- The induction is on the names; only a step that comes to the new file differs, or one that
starts from it. -/
theorem Added.resolveFrom_beside (added : t.Added place (.file bytes mode) u)
    {onLink onLink' : Location → List Text → Except FileFault Resolved}
    (links : ∀ directory names,
      Beside place (.file bytes mode) (onLink directory names) (onLink' directory names))
    (directory : Location) (names : List Text) :
    Beside place (.file bytes mode) (t.resolveFrom true onLink directory names)
      (u.resolveFrom true onLink' directory names) := by
  induction names generalizing directory with
  | nil =>
    simp only [resolveFrom]
    by_cases start : directory = place
    · simp only [start, added.absent, added.present]
      exact .blocked
    · rw [added.elsewhere _ start]
      exact .same _
  | cons name rest inductionHypothesis =>
    simp only [resolveFrom]
    split
    · exact inductionHypothesis directory
    by_cases start : directory = place
    · simp only [start, barrier, added.absent, added.present]
      exact .blocked
    rw [added.barrier start]
    split
    · exact .same _
    split
    · exact inductionHypothesis directory
    split
    · exact inductionHypothesis directory.dropLast
    split
    · exact .same _
    -- The entries that the two trees have on the way differ in one place only.
    by_cases here : directory ++ [name] = place
    · simp only [here, added.absent, added.present]
      split
      · exact .reached here
      · exact .blocked
    · rw [added.elsewhere _ here]
      rcases t.entryAt (directory ++ [name]) with _ | ⟨_, _⟩ | _ | _
      · exact .same _
      · exact .same _
      · exact inductionHypothesis _
      · simp only [Bool.not_true, Bool.and_false, Bool.false_eq_true, if_false]
        exact links _ _

theorem Added.resolveNames_beside (added : t.Added place (.file bytes mode) u) (links : Nat)
    (directory : Location) (names : List Text) :
    Beside place (.file bytes mode) (t.resolveNames true links directory names)
      (u.resolveNames true links directory names) := by
  induction links generalizing directory names with
  | zero => exact .same _
  | succ links inductionHypothesis =>
    exact added.resolveFrom_beside inductionHypothesis directory names

/-- Names lead to a directory next to the new file exactly if they did before. -/
theorem Added.directoryAt_eq_ok_iff (added : t.Added place (.file bytes mode) u)
    {start : Location} {names : List Text} {directory : Location} :
    u.directoryAt start names = .ok directory ↔ t.directoryAt start names = .ok directory := by
  have beside := added.resolveNames_beside linkLimit start names
  simp only [directoryAt]
  generalize t.resolveNames true linkLimit start names = before at beside ⊢
  generalize u.resolveNames true linkLimit start names = after at beside ⊢
  cases beside with
  | same => exact Iff.rfl
  | reached => simp [bind, Except.bind]
  | blocked => simp [bind, Except.bind]

/-- What a path leads to is what it led to before, unless it led to nothing and leads to
the new file. -/
theorem Added.probe_cases (added : t.Added place (.file bytes mode) u) (path : Text) :
    u.probe path = t.probe path ∨
      t.probe path = .ok none ∧ u.probe path = .ok (some (.file bytes mode)) := by
  have beside : Beside place (.file bytes mode) (t.resolve true path) (u.resolve true path) := by
    simp only [resolve, added.here]
    split
    · exact .same _
    split
    · exact .same _
    · exact added.resolveNames_beside linkLimit _ _
  simp only [probe]
  generalize t.resolve true path = before at beside ⊢
  generalize u.resolve true path = after at beside ⊢
  cases beside with
  | same => exact .inl rfl
  | reached => exact .inr ⟨rfl, rfl⟩
  | blocked => exact .inl rfl

end Beside

/-- The permissions of a file that takes the place of what was there. -/
def modeAfter (found : Option Entry) : Nat := (found.map Entry.mode).getD privateMode

section Steps

variable {t : Tree} {place : Location} {path : Text} {bytes : List UInt8} {mode : Nat}

/-- A temporary file gets the permissions that are due. It cannot be taken for what it
replaces with any effect, because its own permissions are those that are due if there is
nothing. -/
theorem copyMode_put (clean : Path.hasNull path = false) (absent : t.entryAt place = none) :
    (t.put place (.file bytes privateMode)).copyMode path place =
      (t.probe (Path.normalize path)).map fun found =>
        t.put place (.file bytes (modeAfter found)) := by
  have added := added_put absent (.file bytes privateMode)
  have set (mode : Nat) : (t.put place (.file bytes privateMode)).setMode place mode =
      t.put place (.file bytes mode) := by
    rw [setMode, added.present]
    exact put_put absent _ _
  rw [copyMode, if_neg (by simp [clean])]
  -- The second case is that of a path which leads to the temporary file itself.
  rcases added.probe_cases (Path.normalize path) with same | ⟨none, found⟩
  · rw [same]
    rcases t.probe (Path.normalize path) with fault | _ | entry
    · rfl
    · rfl
    · exact congrArg Except.ok (set entry.mode)
  · rw [none, found]
    exact congrArg Except.ok (set _)

/-- Names may be made and taken away in a directory. -/
def Writable (t : Tree) (directory : Location) : Prop := t.barrier directory .write = none

/-- A path names a place: its last component in the directory to which the components
before it lead. -/
structure Names (t : Tree) (path : Text) (directory : Location) (name : Text) : Prop where
  last : (Path.parts path).getLast? = some name
  way : t.directoryAt (Path.base t.here path) (Path.parts path).dropLast = .ok directory

/-- A file can be moved to the place that a path names. -/
structure Admits (t : Tree) (path : Text) (directory : Location) (name : Text) : Prop
    extends Names t path directory name where
  clean : Path.hasNull path = false
  searchable : t.Searchable directory
  writable : t.Writable directory
  proper : name ≠ ['.', '.']
  noDirectory : ∀ mode, t.entryAt (directory ++ [name]) ≠ some (.directory mode)

/-- A file in a place of its own can be moved to a name that is free or that of a file or
link, and then it stands there and nowhere else. -/
theorem moveInto_put_eq_ok_iff (absent : t.entryAt place = none) {directory : Location}
    {name : Text} (apart : directory ++ [name] ≠ place) {u : Tree} :
    (t.put place (.file bytes mode)).moveInto place directory name = .ok u ↔
      (t.Searchable directory ∧ t.Writable directory ∧ name ≠ [] ∧ name ≠ ['.', '.'] ∧
          ∀ mode, t.entryAt (directory ++ [name]) ≠ some (.directory mode)) ∧
        u = t.put (directory ++ [name]) (.file bytes mode) := by
  have added := added_put absent (.file bytes mode)
  rw [moveInto, added.present, added.elsewhere _ apart, erase_put absent, Searchable, Writable,
    ← added.barrier_eq_none_iff, ← added.barrier_eq_none_iff]
  cases (t.put place (.file bytes mode)).barrier directory .search with
  | some fault => simp
  | none =>
    by_cases unnamed : name = [] ∨ name = ['.', '.']
    · rw [if_pos (by simpa using unnamed)]
      constructor
      · intro moved
        cases moved
      · rintro ⟨⟨_, _, some, proper, _⟩, _⟩
        exact absurd unnamed (by simp [some, proper])
    · rw [if_neg (by simpa using unnamed)]
      simp only [not_or] at unnamed
      rcases (t.put place (.file bytes mode)).barrier directory .write with _ | _ <;>
        rcases t.entryAt (directory ++ [name]) with _ | ⟨_, _⟩ | _ | _ <;>
        simp [unnamed, eq_comm]

/-- A temporary file can be moved exactly to a place that admits a file. -/
theorem moveTo_put_eq_ok_iff (absent : t.entryAt place = none)
    (apart : ∀ directory name, (Path.parts path).getLast? = some name → directory ++ [name] ≠ place)
    {u : Tree} :
    (t.put place (.file bytes mode)).moveTo place path = .ok u ↔
      ∃ directory name, t.Admits path directory name ∧
        u = t.put (directory ++ [name]) (.file bytes mode) := by
  have added := added_put absent (.file bytes mode)
  constructor
  · intro moved
    rw [moveTo] at moved
    split at moved
    · cases moved
    rename_i clean
    obtain ⟨directory, reached, moved⟩ := bind_eq_ok moved
    rw [added.directoryAt_eq_ok_iff, put_here] at reached
    cases last : (Path.parts path).getLast? with
    | none =>
      rw [last] at moved
      rw [moveInto] at moved
      split at moved <;> cases moved
    | some name =>
      rw [last, Option.getD_some, moveInto_put_eq_ok_iff absent (apart _ _ last)] at moved
      obtain ⟨⟨searchable, writable, _, proper, noDirectory⟩, same⟩ := moved
      exact ⟨directory, name,
        ⟨⟨last, reached⟩, by simpa using clean, searchable, writable, proper, noDirectory⟩, same⟩
  · rintro ⟨directory, name, admits, rfl⟩
    have some : name ≠ [] := by
      have counts := (Path.of_mem_parts (List.mem_of_getLast? admits.last)).2
      rintro rfl
      cases counts
    rw [moveTo, if_neg (by simp [admits.clean])]
    change (Tree.directoryAt _ _ _ >>= _) = _
    rw [added.directoryAt_eq_ok_iff.mpr (put_here t place _ ▸ admits.way), admits.last,
      Option.getD_some]
    exact (moveInto_put_eq_ok_iff absent (apart _ _ admits.last)).mpr
      ⟨⟨admits.searchable, admits.writable, some, admits.proper, admits.noDirectory⟩, rfl⟩

/-- The place of a temporary file for a path: a name with a mark that is not taken, in the
directory that the collapsed path has. -/
structure Temporary (t : Tree) (marks : List Text) (path : Text) (host : Location)
    (name mark : Text) : Prop where
  clean : (Path.collapse (Path.parts path).dropLast ++ [name]).any Path.hasNull = false
  fits : Path.byteLength (t.hostPath path name) + temporaryLength ≤ Path.maxPath
  hosted : t.directoryAt [] (t.hostNames path) = .ok host
  searchable : t.Searchable host
  writable : t.Writable host
  last : (Path.parts path).getLast?.getD [] = name
  short : Path.byteLength name + temporaryLength ≤ Path.maxName
  offered : mark ∈ marks
  absent : t.entryAt (host ++ [temporaryName name mark]) = none

theorem add_eq_ok_iff {directory : Location} {name : Text} {entry : Entry} {u : Tree} :
    t.add directory name entry = .ok u ↔
      t.Writable directory ∧ u = t.put (directory ++ [name]) entry := by
  rw [add, Writable]
  cases t.barrier directory .write <;> simp [eq_comm]

theorem of_makeTemporary_eq_ok {marks : List Text} {made : Tree}
    (succeeded : t.makeTemporary marks path = .ok (place, made)) :
    ∃ host name mark, t.Temporary marks path host name mark ∧
      place = host ++ [temporaryName name mark] ∧ made = t.put place (.file [] privateMode) := by
  simp only [makeTemporary] at succeeded
  split at succeeded
  · cases succeeded
  rename_i clean
  split at succeeded
  · cases succeeded
  rename_i fits
  obtain ⟨host, hosted, succeeded⟩ := bind_eq_ok succeeded
  rw [makeTemporaryIn] at succeeded
  split at succeeded
  · cases succeeded
  rename_i searchable
  split at succeeded
  · cases succeeded
  rename_i short
  split at succeeded
  · cases succeeded
  · rename_i mark found
    obtain ⟨made, added, same⟩ := map_eq_ok succeeded
    obtain ⟨writable, rfl⟩ := add_eq_ok_iff.mp added
    cases same
    exact ⟨host, _, mark, ⟨by simpa using clean, Nat.not_lt.mp fits, hosted, searchable, writable,
      rfl, Nat.not_lt.mp short, List.mem_of_find?_eq_some found,
      by simpa using List.find?_some found⟩, rfl, rfl⟩

theorem Temporary.exists_makeTemporary {marks : List Text} {host : Location} {name mark : Text}
    (temporary : t.Temporary marks path host name mark) :
    ∃ made, t.makeTemporary marks path = .ok made := by
  have free : (marks.find? fun mark =>
      (t.entryAt (host ++ [temporaryName name mark])).isNone).isSome := by
    rw [List.find?_isSome]
    exact ⟨mark, temporary.offered, by simp [temporary.absent]⟩
  obtain ⟨first, found⟩ := Option.isSome_iff_exists.mp free
  refine ⟨(host ++ [temporaryName name first],
    t.put (host ++ [temporaryName name first]) (.file [] privateMode)), ?_⟩
  simp only [makeTemporary, temporary.last, temporary.clean, temporary.hosted,
    if_neg (Nat.not_lt.mpr temporary.fits), Bool.false_eq_true, if_false]
  change t.makeTemporaryIn marks host name = _
  have searchable : t.barrier host .search = none := temporary.searchable
  simp only [makeTemporaryIn, searchable, if_neg (Nat.not_lt.mpr temporary.short), found,
    add_eq_ok_iff.mpr ⟨temporary.writable, rfl⟩, Except.map]

/-- A temporary file has another name than the file that it is to replace. -/
theorem temporaryName_ne (name mark : Text) : temporaryName name mark ≠ name := by
  intro same
  have longer := congrArg List.length same
  simp only [temporaryName, List.cons_append, List.length_cons, List.length_append] at longer
  omega

theorem Temporary.apart {marks : List Text} {host directory : Location} {name name' mark : Text}
    (temporary : t.Temporary marks path host name mark)
    (last : (Path.parts path).getLast? = some name') :
    directory ++ [name'] ≠ host ++ [temporaryName name mark] := by
  have same : name' = name := by simpa [last] using temporary.last
  intro places
  have names : [name'] = [temporaryName name mark] := (List.append_inj' places rfl).2
  exact temporaryName_ne name mark (by simpa [same] using names.symm)

/-- The permissions that a new file is given for a path. -/
def modeFor (t : Tree) (path : Text) : Nat :=
  modeAfter ((t.lookup (Path.normalize path)).map Prod.snd)

/-- A path is refused only if it or a name on its way is too long, or if a directory on its way
may not be searched. -/
theorem probe_eq (t : Tree) (path : Text) :
    (∃ fault, (fault = .nameTooLong ∨ fault = .denied) ∧ t.resolve true path = .error fault ∧
        t.probe path = .error fault) ∨
      (t.resolve true path ≠ .error .nameTooLong ∧ t.resolve true path ≠ .error .denied) ∧
        t.probe path = .ok ((t.lookup path).map Prod.snd) := by
  rw [probe, lookup]
  rcases t.resolve true path with fault | ⟨_, _⟩ | ⟨_, _⟩
  · cases fault <;> simp
  · simp
  · simp

/-- Once there is a temporary file, it is in its place at the end or the tree is the old one:
whatever is refused on the way, the temporary file is removed. -/
theorem replaceWith_of_makeTemporary {marks : List Text}
    (contents : Except FileFault (List UInt8)) (clean : Path.hasNull path = false)
    (absent : t.entryAt place = none)
    (made : t.makeTemporary marks path = .ok (place, t.put place (.file [] privateMode))) :
    t.replaceWith marks path contents =
      t.changed (contents.bind fun bytes =>
        (t.probe (Path.normalize path)).bind fun found =>
          (t.put place (.file bytes (modeAfter found))).moveTo place path) := by
  simp only [replaceWith, made, fill, put_put absent]
  rcases contents with fault | bytes
  · simp [Except.map, Except.bind, changed, andThen, erase_put absent]
  simp only [Except.map, Except.bind, changed, andThen, copyMode_put clean absent]
  rcases t.probe (Path.normalize path) with fault | found
  · simp [erase_put absent]
  · dsimp only
    rcases (t.put place (.file bytes (modeAfter found))).moveTo place path with fault | u
    · simp [erase_put absent]
    · rfl

/-- Everything that it takes to put a file in the place that a path names. -/
structure Replaceable (t : Tree) (marks : List Text) (path : Text) (directory : Location)
    (name : Text) : Prop extends Admits t path directory name where
  roomy : ∃ host mark, t.Temporary marks path host name mark
  known : t.resolve true (Path.normalize path) ≠ .error .nameTooLong ∧
    t.resolve true (Path.normalize path) ≠ .error .denied

/-- A path with a null character is refused, with the temporary file or without it. -/
theorem replaceWith_of_null (t : Tree) (marks : List Text)
    (contents : Except FileFault (List UInt8)) (null : Path.hasNull path = true) :
    ∃ fault, t.replaceWith marks path contents = (t, some fault) := by
  cases made : t.makeTemporary marks path with
  | error fault => exact ⟨fault, by simp [replaceWith, made]⟩
  | ok result =>
    obtain ⟨place, full⟩ := result
    obtain ⟨host, name, mark, temporary, rfl, rfl⟩ := of_makeTemporary_eq_ok made
    cases contents with
    | error fault =>
      refine ⟨fault, ?_⟩
      simp only [replaceWith, made, fill, Except.map, changed, andThen, erase_put temporary.absent]
    | ok bytes =>
      refine ⟨.nullByte, ?_⟩
      simp only [replaceWith, made, fill, Except.map, put_put temporary.absent, copyMode, moveTo,
        null, if_true, changed, andThen, erase_put temporary.absent]

/-- There is the new file and no other change, or there is no change. -/
theorem replaceWith_cases (t : Tree) (marks : List Text) (path : Text)
    (contents : Except FileFault (List UInt8)) :
    (∃ bytes directory name, contents = .ok bytes ∧ t.Replaceable marks path directory name ∧
      t.replaceWith marks path contents =
        (t.put (directory ++ [name]) (.file bytes (t.modeFor path)), none)) ∨
    (∀ bytes directory name, contents = .ok bytes → ¬t.Replaceable marks path directory name) ∧
      ∃ fault, t.replaceWith marks path contents = (t, some fault) := by
  by_cases null : Path.hasNull path = true
  · refine .inr ⟨fun _ directory name _ replaceable => ?_, t.replaceWith_of_null marks _ null⟩
    cases null.symm.trans replaceable.clean
  have clean : Path.hasNull path = false := by simpa using null
  cases made : t.makeTemporary marks path with
  | error fault =>
    refine .inr ⟨fun _ directory name _ replaceable => ?_, fault, by simp [replaceWith, made]⟩
    obtain ⟨host, mark, temporary⟩ := replaceable.roomy
    obtain ⟨_, succeeded⟩ := temporary.exists_makeTemporary
    cases made.symm.trans succeeded
  | ok result =>
    obtain ⟨place, full⟩ := result
    obtain ⟨host, name, mark, temporary, rfl, rfl⟩ := of_makeTemporary_eq_ok made
    have outcome := replaceWith_of_makeTemporary contents clean temporary.absent made
    cases contents with
    | error fault => exact .inr ⟨by simp, fault, outcome⟩
    | ok bytes =>
      rcases t.probe_eq (Path.normalize path) with ⟨fault, kind, refused, stopped⟩ | ⟨known, found⟩
      · simp only [Except.bind, stopped] at outcome
        refine .inr ⟨fun _ _ _ _ replaceable => ?_, _, outcome⟩
        rcases kind with rfl | rfl
        · exact replaceable.known.1 refused
        · exact replaceable.known.2 refused
      · simp only [Except.bind, found] at outcome
        change _ = t.changed ((t.put _ (.file bytes (t.modeFor path))).moveTo _ path) at outcome
        cases moved : (t.put (host ++ [temporaryName name mark])
            (.file bytes (t.modeFor path))).moveTo (host ++ [temporaryName name mark]) path with
        | ok u =>
          rw [moved] at outcome
          rw [moveTo_put_eq_ok_iff temporary.absent fun _ _ => temporary.apart] at moved
          obtain ⟨directory, name', admits, rfl⟩ := moved
          have same : name' = name := by simpa [admits.last] using temporary.last
          exact .inl ⟨bytes, directory, name', rfl,
            ⟨admits, ⟨host, mark, same ▸ temporary⟩, known⟩, outcome⟩
        | error fault =>
          rw [moved] at outcome
          refine .inr ⟨fun _ directory name' _ replaceable => ?_, fault, outcome⟩
          rw [(moveTo_put_eq_ok_iff temporary.absent fun _ _ => temporary.apart).mpr
            ⟨directory, name', replaceable.toAdmits, rfl⟩] at moved
          cases moved

end Steps

section Refusals

variable {t : Tree} {path : Text} {fault : FileFault}

end Refusals

section Marks

end Marks

section Found

variable {t u : Tree} {place : Location} {bytes : List UInt8} {mode : Nat}

/-- A way to a directory does not lead through a file, so it was there before the file. -/
theorem AlikeBut.resolveFrom_directory (alike : t.AlikeBut u place)
    (file : u.entryAt place = some (.file bytes mode))
    {onLink onLink' : Location → List Text → Except FileFault Resolved}
    (links : ∀ directory names location mode,
      onLink' directory names = .ok (.found location (.directory mode)) →
        onLink directory names = .ok (.found location (.directory mode)))
    {directory location : Location} {names : List Text} {mode : Nat}
    (found : u.resolveFrom true onLink' directory names = .ok (.found location (.directory mode))) :
    t.resolveFrom true onLink directory names = .ok (.found location (.directory mode)) := by
  have kept {location : Location} {entry : Entry} (next : u.entryAt location = some entry)
      (other : ∀ bytes mode, entry ≠ .file bytes mode) : t.entryAt location = some entry := by
    rw [← next, alike.elsewhere]
    rintro rfl
    rw [file] at next
    exact other _ _ (Option.some.inj next).symm
  have searched {directory : Location} (searchable : u.Searchable directory) :
      t.Searchable directory :=
    alike.symm.barrier_eq_none (by simp [file]) searchable
  induction names generalizing directory with
  | nil =>
    obtain ⟨_, there, same⟩ := resolveFrom_nil_iff.mp found
    exact resolveFrom_nil_iff.mpr ⟨_, kept there (by simp), same⟩
  | cons name rest inductionHypothesis =>
    rw [resolveFrom_cons_iff]
    cases resolveFrom_cons_iff.mp found with
    | empty silent onward => exact .empty silent (inductionHypothesis onward)
    | point silent searchable onward =>
      exact .point silent (searched searchable) (inductionHypothesis onward)
    | up points searchable onward =>
      exact .up points (searched searchable) (inductionHypothesis onward)
    | down plain searchable next onward =>
      exact .down plain (searched searchable) (kept next (by simp)) (inductionHypothesis onward)
    | file plain searchable last alone ended => cases ended
    | missing plain searchable absent alone ended => cases ended
    | link plain searchable next onward =>
      exact .link plain (searched searchable) (kept next (by simp)) (links _ _ _ _ onward)

theorem AlikeBut.directoryAt (alike : t.AlikeBut u place)
    (file : u.entryAt place = some (.file bytes mode)) {start : Location} {names : List Text}
    {directory : Location} (reached : u.directoryAt start names = .ok directory) :
    t.directoryAt start names = .ok directory := by
  have resolved (links : Nat) : ∀ start names location mode,
      u.resolveNames true links start names = .ok (.found location (.directory mode)) →
        t.resolveNames true links start names = .ok (.found location (.directory mode)) := by
    induction links with
    | zero =>
      intro start names location mode found
      cases found
    | succ links inductionHypothesis =>
      intro start names location mode found
      exact alike.resolveFrom_directory file inductionHypothesis found
  obtain ⟨result, found, reached⟩ := bind_eq_ok reached
  split at reached
  · cases reached
    rw [Tree.directoryAt, resolved _ _ _ _ _ found]
    rfl
  · cases reached
  · cases reached

end Found

/-- What is reported of a replacement is what it leaves: the new tree, or the old one. -/
theorem replaceWith_marks (t : Tree) (path : Text) (bytes : List UInt8) :
    t.replaceWith t.marks path (.ok bytes) = t.changed (t.replace path bytes) := by
  rw [replace]
  rcases t.replaceWith_cases t.marks path (.ok bytes) with
    ⟨_, _, _, _, _, outcome⟩ | ⟨_, _, outcome⟩
  · rw [outcome]
    rfl
  · rw [outcome]
    rfl

/-- What a file that was replaced has passed, and what it is replaced by. -/
theorem of_replace_eq_ok {t u : Tree} {path : Text} {bytes : List UInt8}
    (replaced : t.replace path bytes = .ok u) :
    ∃ directory name probed, t.probe (Path.normalize path) = .ok probed ∧
      t.Names path directory name ∧
      u = t.put (directory ++ [name]) (.file bytes (modeAfter probed)) := by
  have whole := t.replaceWith_marks path bytes
  rw [replaced] at whole
  rcases t.replaceWith_cases t.marks path (.ok bytes) with
    ⟨bytes', directory, name, same, replaceable, outcome⟩ | ⟨_, _, outcome⟩
  · cases same
    cases whole.symm.trans outcome
    rcases t.probe_eq (Path.normalize path) with ⟨_, rfl | rfl, refused, _⟩ | ⟨_, found⟩
    · exact absurd refused replaceable.known.1
    · exact absurd refused replaceable.known.2
    · exact ⟨directory, name, _, found, replaceable.toNames, rfl⟩
  · cases whole.symm.trans outcome

/-- A file is replaced where it is read, and it keeps its permissions. -/
theorem replace_eq_put {t u : Tree} (linkFree : t.LinkFree) {path : Text} {location : Location}
    {old new : List UInt8} {mode : Nat}
    (found : t.resolve true path = .ok (.found location (.file old mode)))
    (replaced : t.replace path new = .ok u) : u = t.put location (.file new mode) := by
  obtain ⟨directory, name, probed, answered, named, rfl⟩ := of_replace_eq_ok replaced
  have way := leads_of_resolve linkFree found
  obtain ⟨outer, last, inner, _, split, rfl, _, before⟩ := way.file_split
  have reached := named.way
  have same := named.last
  rw [split, List.dropLast_concat, directoryAt_of_leads linkFree before] at reached
  rw [split, List.getLast?_concat] at same
  cases reached
  cases same
  rw [probe_normalize found answered]
  rfl

/-- A link to a file in a directory, by its path from the top, seen from below that directory. -/
def linked : Tree where
  entries := [([['d']], .directory 0o711), ([['d'], ['f']], .file [120] 0o640),
    ([['l']], .link ['/', 'd', '/', 'f'])]
  here := [['d']]

end Tree

end Emend
