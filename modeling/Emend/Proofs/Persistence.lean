import Emend.Proofs.Replacement
import Emend.Query

/-!
# What a replaced file leaves in place

A file is replaced where the directory part of its path leads and under its last
name, which may be that of a link. A link that was read leads to a file, so it is
not on the way to any directory: a file in its place leads no path astray. Every
path that led to a directory or to a file still does, and so the start of a query
stays there.
-/

namespace Emend.Tree

/-- Names lead from a directory to an entry, with all links followed. -/
inductive Reaches (t : Tree) : Location → List Text → Location → Entry → Prop where
  | here {directory : Location} {mode : Nat}
      (found : t.entryAt directory = some (.directory mode)) :
      Reaches t directory [] directory (.directory mode)
  | empty {directory location : Location} {rest : List Text} {entry : Entry}
      (way : Reaches t directory rest location entry) :
      Reaches t directory ([] :: rest) location entry
  | point {directory location : Location} {rest : List Text} {entry : Entry}
      (searchable : t.Searchable directory) (way : Reaches t directory rest location entry) :
      Reaches t directory (['.'] :: rest) location entry
  | up {directory location : Location} {rest : List Text} {entry : Entry}
      (searchable : t.Searchable directory)
      (way : Reaches t directory.dropLast rest location entry) :
      Reaches t directory (['.', '.'] :: rest) location entry
  | down {directory location : Location} {name : Text} {rest : List Text} {entry : Entry}
      (plain : Plain name) (searchable : t.Searchable directory) {mode : Nat}
      (next : t.entryAt (directory ++ [name]) = some (.directory mode))
      (way : Reaches t (directory ++ [name]) rest location entry) :
      Reaches t directory (name :: rest) location entry
  | file {directory : Location} {name : Text} {bytes : List UInt8} {mode : Nat}
      (plain : Plain name) (searchable : t.Searchable directory)
      (last : t.entryAt (directory ++ [name]) = some (.file bytes mode)) :
      Reaches t directory [name] (directory ++ [name]) (.file bytes mode)
  | link {directory location : Location} {name target : Text} {rest : List Text} {entry : Entry}
      (plain : Plain name) (searchable : t.Searchable directory)
      (next : t.entryAt (directory ++ [name]) = some (.link target))
      (way : Reaches t (Path.base directory target) (target.splitAt '/' ++ rest) location entry) :
      Reaches t directory (name :: rest) location entry

/-- What is found with links followed is reached, if that holds after each link. -/
theorem reaches_of_resolveFrom {t : Tree}
    {onLink : Location → List Text → Except FileFault Resolved}
    (links : ∀ directory names location entry,
      onLink directory names = .ok (.found location entry) →
        t.Reaches directory names location entry)
    {directory location : Location} {names : List Text} {entry : Entry}
    (found : t.resolveFrom true onLink directory names = .ok (.found location entry)) :
    t.Reaches directory names location entry := by
  induction names generalizing directory with
  | nil =>
    obtain ⟨_, there, same⟩ := resolveFrom_nil_iff.mp found
    cases same
    exact .here there
  | cons name rest inductionHypothesis =>
    cases resolveFrom_cons_iff.mp found with
    | empty silent onward => exact silent ▸ .empty (inductionHypothesis onward)
    | point silent searchable onward =>
      exact silent ▸ .point searchable (inductionHypothesis onward)
    | up points searchable onward => exact points ▸ .up searchable (inductionHypothesis onward)
    | down plain searchable next onward =>
      exact .down plain searchable next (inductionHypothesis onward)
    | file plain searchable last alone ended =>
      cases ended
      exact alone ▸ .file plain searchable last
    | missing plain searchable absent alone ended => cases ended
    | link plain searchable next onward =>
      exact .link plain searchable next (links _ _ _ _ onward)

theorem reaches_of_resolveNames {t : Tree} {links : Nat} {directory location : Location}
    {names : List Text} {entry : Entry}
    (found : t.resolveNames true links directory names = .ok (.found location entry)) :
    t.Reaches directory names location entry := by
  induction links generalizing directory names location entry with
  | zero => cases found
  | succ links inductionHypothesis =>
    exact reaches_of_resolveFrom (fun _ _ _ _ => inductionHypothesis) found

namespace Reaches

variable {t : Tree} {directory inner location location' : Location} {names more : List Text}
  {entry : Entry} {bytes : List UInt8} {mode : Nat}

theorem empty_inv (way : t.Reaches directory ([] :: names) location entry) :
    t.Reaches directory names location entry := by
  cases way with
  | empty way => exact way
  | down plain => exact absurd rfl plain.ne_nil
  | file plain => exact absurd rfl plain.ne_nil
  | link plain => exact absurd rfl plain.ne_nil

theorem point_inv (way : t.Reaches directory (['.'] :: names) location entry) :
    t.Reaches directory names location entry := by
  cases way with
  | point _ way => exact way
  | down plain => exact absurd rfl plain.ne_point
  | file plain => exact absurd rfl plain.ne_point
  | link plain => exact absurd rfl plain.ne_point

theorem up_inv (way : t.Reaches directory (['.', '.'] :: names) location entry) :
    t.Reaches directory.dropLast names location entry := by
  cases way with
  | up _ way => exact way
  | down plain => exact absurd rfl plain.2.1
  | file plain => exact absurd rfl plain.2.1
  | link plain => exact absurd rfl plain.2.1

/-- Which way a plain name goes is up to the entry below the directory. -/
theorem plain_inv {name : Text} (way : t.Reaches directory (name :: names) location entry)
    (plain : Plain name) :
    (∃ mode, t.entryAt (directory ++ [name]) = some (.directory mode) ∧
        t.Reaches (directory ++ [name]) names location entry) ∨
      (∃ bytes mode, t.entryAt (directory ++ [name]) = some (.file bytes mode) ∧ names = [] ∧
        entry = .file bytes mode) ∨
      ∃ target, t.entryAt (directory ++ [name]) = some (.link target) ∧
        t.Reaches (Path.base directory target) (target.splitAt '/' ++ names) location entry := by
  cases way with
  | empty => exact absurd rfl plain.ne_nil
  | point => exact absurd rfl plain.ne_point
  | up => exact absurd rfl plain.2.1
  | down _ _ next way => exact .inl ⟨_, next, way⟩
  | file _ _ last => exact .inr (.inl ⟨_, _, last, rfl, rfl⟩)
  | link _ _ next way => exact .inr (.inr ⟨_, next, way⟩)

/-- One name leads to a file as the name of the file or as that of a link to it. -/
theorem single_inv {name : Text} (way : t.Reaches directory [name] location (.file bytes mode)) :
    t.entryAt (directory ++ [name]) = some (.file bytes mode) ∨
      ∃ target, t.entryAt (directory ++ [name]) = some (.link target) ∧
        t.Reaches (Path.base directory target) (target.splitAt '/') location
          (.file bytes mode) := by
  cases way with
  | empty rest => cases rest
  | point _ rest => cases rest
  | up _ rest => cases rest
  | down _ _ _ rest => cases rest
  | file _ _ last => exact .inl last
  | link _ _ next rest =>
    rw [List.append_nil] at rest
    exact .inr ⟨_, next, rest⟩

/-- What names lead to lies where they lead. -/
theorem entryAt_eq (way : t.Reaches directory names location entry) :
    t.entryAt location = some entry := by
  induction way with
  | here found => exact found
  | empty way inductionHypothesis => exact inductionHypothesis
  | point searchable way inductionHypothesis => exact inductionHypothesis
  | up searchable way inductionHypothesis => exact inductionHypothesis
  | down plain searchable next way inductionHypothesis => exact inductionHypothesis
  | file plain searchable last => exact last
  | link plain searchable next way inductionHypothesis => exact inductionHypothesis

/-- After the way to a directory, the names that are left lead on from there. -/
theorem of_append (way : t.Reaches directory names inner (.directory mode))
    (whole : t.Reaches directory (names ++ more) location entry) :
    t.Reaches inner more location entry := by
  generalize reached : Entry.directory mode = kind at way
  induction way with
  | here found => exact whole
  | empty way inductionHypothesis => exact inductionHypothesis whole.empty_inv reached
  | point searchable way inductionHypothesis => exact inductionHypothesis whole.point_inv reached
  | up searchable way inductionHypothesis => exact inductionHypothesis whole.up_inv reached
  | down plain searchable next way inductionHypothesis =>
    rw [List.cons_append] at whole
    rcases whole.plain_inv plain with ⟨_, _, whole⟩ | ⟨_, _, last, _⟩ | ⟨_, link, _⟩
    · exact inductionHypothesis whole reached
    · cases next.symm.trans last
    · cases next.symm.trans link
  | file plain searchable last => cases reached
  | link plain searchable next way inductionHypothesis =>
    rw [List.cons_append] at whole
    rcases whole.plain_inv plain with ⟨_, below, _⟩ | ⟨_, _, last, _⟩ | ⟨_, link, whole⟩
    · cases next.symm.trans below
    · cases next.symm.trans last
    · cases next.symm.trans link
      rw [← List.append_assoc] at whole
      exact inductionHypothesis whole reached

/-- No way goes on from a file. -/
theorem eq_nil_of_append (way : t.Reaches directory names location (.file bytes mode))
    (whole : t.Reaches directory (names ++ more) location' entry) :
    more = [] ∧ entry = .file bytes mode := by
  generalize reached : Entry.file bytes mode = kind at way
  induction way with
  | here found => cases reached
  | empty way inductionHypothesis => exact inductionHypothesis whole.empty_inv reached
  | point searchable way inductionHypothesis => exact inductionHypothesis whole.point_inv reached
  | up searchable way inductionHypothesis => exact inductionHypothesis whole.up_inv reached
  | down plain searchable next way inductionHypothesis =>
    rw [List.cons_append] at whole
    rcases whole.plain_inv plain with ⟨_, _, whole⟩ | ⟨_, _, last, _⟩ | ⟨_, link, _⟩
    · exact inductionHypothesis whole reached
    · cases next.symm.trans last
    · cases next.symm.trans link
  | file plain searchable last =>
    rw [List.cons_append] at whole
    rcases whole.plain_inv plain with ⟨_, below, _⟩ | ⟨_, _, again, ended, same⟩ | ⟨_, link, _⟩
    · cases last.symm.trans below
    · cases last.symm.trans again
      exact ⟨ended, same⟩
    · cases last.symm.trans link
  | link plain searchable next way inductionHypothesis =>
    rw [List.cons_append] at whole
    rcases whole.plain_inv plain with ⟨_, below, _⟩ | ⟨_, _, last, _⟩ | ⟨_, link, whole⟩
    · cases next.symm.trans below
    · cases next.symm.trans last
    · cases next.symm.trans link
      rw [← List.append_assoc] at whole
      exact inductionHypothesis whole reached

end Reaches

/-- A file has been put in a place where there was no directory and no link that
leads to one. -/
structure Overwritten (t : Tree) (directory : Location) (name : Text) (u : Tree) : Prop
    extends AlikeBut t u (directory ++ [name]) where
  file : ∃ bytes mode, u.entryAt (directory ++ [name]) = some (.file bytes mode)
  noDirectory : ∀ mode, t.entryAt (directory ++ [name]) ≠ some (.directory mode)
  fileBehindLink : ∀ target, t.entryAt (directory ++ [name]) = some (.link target) →
    ∃ location bytes mode,
      t.Reaches (Path.base directory target) (target.splitAt '/') location (.file bytes mode)

/-- What a path leads to is what its components lead to. -/
theorem reaches_of_resolve {t : Tree} {path : Text} {location : Location} {entry : Entry}
    (found : t.resolve true path = .ok (.found location entry)) :
    t.Reaches (Path.base t.here path) (Path.parts path) location entry :=
  reaches_of_resolveNames (resolveNames_parts found)

/-- A file that was read and then replaced has overwritten what its path names: the
new file stands in the directory to which the names before the last one lead, with the
permissions of the file that was read. -/
theorem place_of_replace {t u : Tree} {path : Text} {location : Location}
    {old new : List UInt8} {mode : Nat}
    (found : t.resolve true path = .ok (.found location (.file old mode)))
    (replaced : t.replace path new = .ok u) :
    ∃ outer directory name access, Path.parts path = outer ++ [name] ∧
      t.Reaches (Path.base t.here path) outer directory (.directory access) ∧
      t.Overwritten directory name u ∧
      u.entryAt (directory ++ [name]) = some (.file new mode) := by
  obtain ⟨directory, name, probed, answered, named, rfl⟩ := of_replace_eq_ok replaced
  cases probe_normalize found answered
  obtain ⟨outer, split⟩ := List.getLast?_eq_some_iff.mp named.last
  have way := reaches_of_resolve found
  have reached := named.way
  rw [split] at way reached
  rw [List.dropLast_concat] at reached
  obtain ⟨access, outside⟩ : ∃ access,
      t.Reaches (Path.base t.here path) outer directory (.directory access) := by
    obtain ⟨resolved, found, entry⟩ := bind_eq_ok reached
    split at entry
    · cases entry
      exact ⟨_, reaches_of_resolveNames found⟩
    · cases entry
    · cases entry
  have inside := (outside.of_append way).single_inv
  have written : (t.put (directory ++ [name]) (.file new mode)).entryAt (directory ++ [name]) =
      some (.file new mode) := by
    rw [entryAt_put _ (by simp), if_pos rfl]
  refine ⟨outer, directory, name, access, split, outside,
    ⟨alikeBut_put t (by simp) _, ⟨_, _, written⟩, ?_, ?_⟩, written⟩
  · intro access below
    rcases inside with last | ⟨_, next, _⟩
    · cases below.symm.trans last
    · cases below.symm.trans next
  · intro target link
    rcases inside with last | ⟨_, next, way⟩
    · cases link.symm.trans last
    · cases link.symm.trans next
      exact ⟨location, old, mode, way⟩

theorem overwritten_of_replace {t u : Tree} {path : Text} {location : Location}
    {old new : List UInt8} {mode : Nat}
    (found : t.resolve true path = .ok (.found location (.file old mode)))
    (replaced : t.replace path new = .ok u) : ∃ directory name, t.Overwritten directory name u := by
  obtain ⟨_, directory, name, _, _, _, rewritten, _⟩ := place_of_replace found replaced
  exact ⟨directory, name, rewritten⟩

namespace Overwritten

variable {t u : Tree} {directory : Location} {name : Text}

/-- Where there was a file there is one. -/
theorem still_file (rewritten : t.Overwritten directory name u) {location : Location}
    {bytes : List UInt8} {mode : Nat} (was : t.entryAt location = some (.file bytes mode)) :
    ∃ bytes mode, u.entryAt location = some (.file bytes mode) := by
  by_cases here : location = directory ++ [name]
  · exact here ▸ rewritten.file
  · exact ⟨bytes, mode, (rewritten.elsewhere _ here).trans was⟩

/-- A directory that could be searched still can. -/
theorem searchable (rewritten : t.Overwritten directory name u) {location : Location}
    (searchable : t.Searchable location) : u.Searchable location :=
  rewritten.barrier_eq_none rewritten.noDirectory searchable

/-- Where there was a directory there is the same one. -/
theorem still_directory (rewritten : t.Overwritten directory name u) {location : Location}
    {mode : Nat} (was : t.entryAt location = some (.directory mode)) :
    u.entryAt location = some (.directory mode) := by
  rw [rewritten.elsewhere _ _, was]
  rintro rfl
  exact rewritten.noDirectory mode was

/-- What is found before is found after, as a directory or as a file, if that
holds after each link. The way changes only where it meets the new file: then it
ended at the old file, or it followed the link to a file and ended there. -/
theorem resolveFrom (rewritten : t.Overwritten directory name u)
    {onLink onLink' : Location → List Text → Except FileFault Resolved}
    (reaches : ∀ start names location entry,
      onLink start names = .ok (.found location entry) → t.Reaches start names location entry)
    (links : ∀ start names location entry, onLink start names = .ok (.found location entry) →
      ∃ location' entry', onLink' start names = .ok (.found location' entry') ∧
        entry'.shape = entry.shape)
    {start location : Location} {names : List Text} {entry : Entry}
    (found : t.resolveFrom true onLink start names = .ok (.found location entry)) :
    ∃ location' entry', u.resolveFrom true onLink' start names = .ok (.found location' entry') ∧
      entry'.shape = entry.shape := by
  induction names generalizing start with
  | nil =>
    obtain ⟨_, there, same⟩ := resolveFrom_nil_iff.mp found
    cases same
    exact ⟨_, _, resolveFrom_nil_iff.mpr ⟨_, rewritten.still_directory there, rfl⟩, rfl⟩
  | cons first rest inductionHypothesis =>
    simp only [resolveFrom_cons_iff]
    cases resolveFrom_cons_iff.mp found with
    | empty silent onward =>
      obtain ⟨_, _, now, kind⟩ := inductionHypothesis onward
      exact ⟨_, _, .empty silent now, kind⟩
    | point silent searchable onward =>
      obtain ⟨_, _, now, kind⟩ := inductionHypothesis onward
      exact ⟨_, _, .point silent (rewritten.searchable searchable) now, kind⟩
    | up points searchable onward =>
      obtain ⟨_, _, now, kind⟩ := inductionHypothesis onward
      exact ⟨_, _, .up points (rewritten.searchable searchable) now, kind⟩
    | down plain searchable next onward =>
      obtain ⟨_, _, now, kind⟩ := inductionHypothesis onward
      exact ⟨_, _, .down plain (rewritten.searchable searchable)
        (rewritten.still_directory next) now, kind⟩
    | file plain searchable last alone ended =>
      cases ended
      obtain ⟨bytes, mode, now⟩ := rewritten.still_file last
      exact ⟨_, _, .file plain (rewritten.searchable searchable) now alone rfl, rfl⟩
    | missing plain searchable absent alone ended => cases ended
    | link plain searchable next onward =>
      by_cases here : start ++ [first] = directory ++ [name]
      · obtain ⟨same, _⟩ := List.append_inj' here rfl
        obtain ⟨bytes, mode, now⟩ := rewritten.file
        obtain ⟨_, _, _, file⟩ := rewritten.fileBehindLink _ (here ▸ next)
        obtain ⟨ended, kind⟩ := (same ▸ file).eq_nil_of_append (reaches _ _ _ _ onward)
        rw [← here] at now
        exact ⟨_, _, .file plain (rewritten.searchable searchable) now ended rfl,
          by rw [kind]; rfl⟩
      · obtain ⟨_, _, now, kind⟩ := links _ _ _ _ onward
        rw [← rewritten.elsewhere _ here] at next
        exact ⟨_, _, .link plain (rewritten.searchable searchable) next now, kind⟩

theorem resolveNames (rewritten : t.Overwritten directory name u) {links : Nat}
    {start location : Location} {names : List Text} {entry : Entry}
    (found : t.resolveNames true links start names = .ok (.found location entry)) :
    ∃ location' entry', u.resolveNames true links start names = .ok (.found location' entry') ∧
      entry'.shape = entry.shape := by
  induction links generalizing start names location entry with
  | zero => cases found
  | succ links inductionHypothesis =>
    exact rewritten.resolveFrom (fun _ _ _ _ => reaches_of_resolveNames)
      (fun _ _ _ _ => inductionHypothesis) found

/-- A path that led to something leads to something of its kind. -/
theorem resolve (rewritten : t.Overwritten directory name u) {path : Text} {location : Location}
    {entry : Entry} (found : t.resolve true path = .ok (.found location entry)) :
    ∃ location' entry', u.resolve true path = .ok (.found location' entry') ∧
      entry'.shape = entry.shape := by
  simp only [Tree.resolve, rewritten.here] at found ⊢
  split at found
  · cases found
  rename_i short
  split at found
  · cases found
  rename_i proper
  rw [if_neg short, if_neg proper]
  exact rewritten.resolveNames found

theorem lookup (rewritten : t.Overwritten directory name u) {path : Text} {location : Location}
    {entry : Entry} (found : t.lookup path = some (location, entry)) :
    ∃ location' entry', u.lookup path = some (location', entry') ∧
      entry'.shape = entry.shape := by
  rw [Tree.lookup] at found
  split at found
  · rename_i resolved
    cases found
    obtain ⟨location', entry', now, kind⟩ := rewritten.resolve resolved
    exact ⟨location', entry', by rw [Tree.lookup, now], kind⟩
  · cases found

/-- A way to a directory stays the same. It does not meet the new file, where there
was no directory and no link to one. -/
theorem reaches_directory (rewritten : t.Overwritten directory name u) {start location : Location}
    {names : List Text} {mode : Nat} (way : t.Reaches start names location (.directory mode)) :
    u.Reaches start names location (.directory mode) := by
  generalize kind : Entry.directory mode = entry at way
  induction way with
  | here found =>
    exact .here (rewritten.still_directory found)
  | empty way inductionHypothesis => exact .empty (inductionHypothesis kind)
  | point searchable way inductionHypothesis =>
    exact .point (rewritten.searchable searchable) (inductionHypothesis kind)
  | up searchable way inductionHypothesis =>
    exact .up (rewritten.searchable searchable) (inductionHypothesis kind)
  | file plain searchable last => cases kind
  | down plain searchable next way inductionHypothesis =>
    exact .down plain (rewritten.searchable searchable) (rewritten.still_directory next)
      (inductionHypothesis kind)
  | @link start location first target rest entry plain searchable next way inductionHypothesis =>
    by_cases here : start ++ [first] = directory ++ [name]
    · obtain ⟨same, _⟩ := List.append_inj' here rfl
      obtain ⟨_, _, _, file⟩ := rewritten.fileBehindLink _ (here ▸ next)
      obtain ⟨_, impossible⟩ := (same ▸ file).eq_nil_of_append way
      cases kind.trans impossible
    · rw [← rewritten.elsewhere _ here] at next
      exact .link plain (rewritten.searchable searchable) next (inductionHypothesis kind)

/-- The start of a query stays there. -/
theorem targetExists (rewritten : t.Overwritten directory name u) {q : Query}
    (present : q.targetExists t = true) : q.targetExists u = true := by
  cases q with
  | single path =>
    simp only [Query.targetExists, isFile] at present ⊢
    split at present
    · rename_i bytes mode found
      obtain ⟨_, entry, now, kind⟩ := rewritten.lookup found
      cases entry <;> simp_all [Entry.shape]
    · cases present
  | inDirectory path filter recursive followLinks globs =>
    simp only [Query.targetExists, isDirectory] at present ⊢
    split at present
    · rename_i found
      obtain ⟨_, entry, now, kind⟩ := rewritten.lookup found
      cases entry <;> simp_all [Entry.shape]
    · cases present

end Overwritten

/-- What is read after a file was replaced is what replaced it. The path leads to the
same directory, and there its last name is that of the new file, which has the permissions of
the file that was read. -/
theorem read_of_replace {t u : Tree} {path : Text} {old new : List UInt8}
    (read : t.read path = .ok old) (replaced : t.replace path new = .ok u) :
    u.read path = .ok new := by
  obtain ⟨location, mode, found, readable⟩ := read_eq_ok_iff.mp read
  obtain ⟨outer, directory, name, access, split, outside, rewritten, written⟩ :=
    place_of_replace found replaced
  obtain ⟨location', entry', now, kind⟩ := rewritten.resolve found
  cases entry' with
  | directory => cases kind
  | link target => cases kind
  | file bytes' mode' =>
    have way := reaches_of_resolve now
    rw [split, rewritten.here] at way
    have same : bytes' = new ∧ mode' = mode := by
      rcases ((rewritten.reaches_directory outside).of_append way).single_inv with
        last | ⟨_, link, _⟩
      · cases last.symm.trans written
        exact ⟨rfl, rfl⟩
      · cases link.symm.trans written
    rw [← rewritten.grants] at readable
    rw [same.1, same.2] at now
    exact read_eq_ok_iff.mpr ⟨location', mode, now, readable⟩

end Emend.Tree
