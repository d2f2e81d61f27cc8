import Emend.Proofs.Persistence

/-!
# A file that was written is found

Writing follows links to the end. It either gives new bytes to the file that a
path leads to, or makes a file under the name at which the path ends. After that
the path leads to the file that was written: a file that was there has kept its
place, and a name that was missing lies at the end of the way and not on it. So
what was written is read, unless a file that was there may be written but not read.
-/

namespace Emend.Tree

variable {t u : Tree} {directory start location : Location} {name : Text} {names : List Text}
  {bytes : List UInt8} {mode : Nat}

/-- A name that a way ends at is missing. -/
theorem entryAt_of_missing {links : Nat}
    (missed : t.resolveNames true links start names = .ok (.missing directory name)) :
    t.entryAt (directory ++ [name]) = none := by
  induction links generalizing start names with
  | zero => cases missed
  | succ links inductionHypothesis =>
    rw [resolveNames] at missed
    induction names generalizing start with
    | nil =>
      obtain ⟨_, _, same⟩ := resolveFrom_nil_iff.mp missed
      cases same
    | cons first rest restHypothesis =>
      cases resolveFrom_cons_iff.mp missed with
      | empty _ onward => exact restHypothesis onward
      | point _ _ onward => exact restHypothesis onward
      | up _ _ onward => exact restHypothesis onward
      | down _ _ _ onward => exact restHypothesis onward
      | file _ _ _ _ ended => cases ended
      | missing _ _ absent _ ended =>
        cases ended
        exact absent
      | link _ _ _ onward => exact inductionHypothesis onward

/-- Where a way ended at a missing name it leads to the file that was put there,
because no step on the way looked at that name before. -/
theorem Added.resolveNames {links : Nat}
    (added : t.Added (directory ++ [name]) (.file bytes mode) u)
    (missed : t.resolveNames true links start names = .ok (.missing directory name)) :
    u.resolveNames true links start names =
      .ok (.found (directory ++ [name]) (.file bytes mode)) := by
  have kept {place : Location} {entry : Entry} (next : t.entryAt place = some entry) :
      u.entryAt place = some entry := by
    rw [added.elsewhere, next]
    rintro rfl
    cases next.symm.trans added.absent
  have searched {place : Location} (searchable : t.Searchable place) : u.Searchable place :=
    added.barrier_eq_none_iff.mpr searchable
  induction links generalizing start names with
  | zero => cases missed
  | succ links inductionHypothesis =>
    rw [Tree.resolveNames] at missed ⊢
    induction names generalizing start with
    | nil =>
      obtain ⟨_, _, same⟩ := resolveFrom_nil_iff.mp missed
      cases same
    | cons first rest restHypothesis =>
      rw [resolveFrom_cons_iff]
      cases resolveFrom_cons_iff.mp missed with
      | empty silent onward => exact .empty silent (restHypothesis onward)
      | point silent searchable onward =>
        exact .point silent (searched searchable) (restHypothesis onward)
      | up points searchable onward =>
        exact .up points (searched searchable) (restHypothesis onward)
      | down plain searchable next onward =>
        exact .down plain (searched searchable) (kept next) (restHypothesis onward)
      | file _ _ _ _ ended => cases ended
      | missing plain searchable _ alone ended =>
        cases ended
        exact .file plain (searched searchable) added.present alone rfl
      | link plain searchable next onward =>
        exact .link plain (searched searchable) (kept next) (inductionHypothesis onward)

/-- A new file may be read and written. -/
theorem grants_fileMode (t : Tree) {access : Access} (other : access ≠ .search) :
    t.grants fileMode access = true := by
  have granted : fileMode.testBit access.bit = true := by
    cases access with
    | read => decide
    | write => decide
    | search => exact absurd rfl other
  rw [grants, granted, Bool.or_true]

/-- A path that was written to leads to a file with what was written. The file has the permissions
of the one that was there, which then could be written, or those of a new file. -/
theorem resolve_of_write {path : Text} (written : t.write path bytes = .ok u) :
    ∃ location mode, u.resolve true path = .ok (.found location (.file bytes mode)) ∧
      u.privileged = t.privileged ∧ t.grants mode .write = true ∧
      (mode = fileMode ∨ ∃ old, t.resolve true path = .ok (.found location (.file old mode))) := by
  obtain ⟨resolved, found, written⟩ := bind_eq_ok written
  split at written
  · rename_i location old mode
    split at written
    · rename_i writable
      cases written
      have was := (reaches_of_resolve found).entryAt_eq
      obtain ⟨entry, now, kind⟩ := resolve_of_sameShape (sameShape_put was) found
      have place := (reaches_of_resolve now).entryAt_eq
      rw [entryAt_put t (ne_nil_of_file was), if_pos rfl] at place
      cases place
      exact ⟨location, mode, now, by simp, writable, .inr ⟨old, found⟩⟩
    · cases written
  · cases written
  · rename_i directory name
    obtain ⟨-, rfl⟩ := add_eq_ok_iff.mp written
    simp only [resolve, put_here] at found ⊢
    split at found
    · cases found
    rename_i short
    split at found
    · cases found
    rename_i proper
    rw [if_neg short, if_neg proper]
    have added := added_put (entryAt_of_missing found) (.file bytes fileMode)
    exact ⟨_, _, added.resolveNames found, by simp, t.grants_fileMode (by simp), .inl rfl⟩

/-- What is read after a file was written is what was written, unless the file could not be read
before. -/
theorem read_of_write {path : Text} (written : t.write path bytes = .ok u) :
    u.read path = .ok bytes ∨ t.read path = .error .denied ∧ u.read path = .error .denied := by
  obtain ⟨location, mode, now, same, -, found⟩ := resolve_of_write written
  have grant : u.grants mode .read = t.grants mode .read := by rw [grants, grants, same]
  have after : u.read path = if t.grants mode .read then .ok bytes else .error .denied := by
    rw [Tree.read, now, ← grant]
    rfl
  rw [after]
  cases readable : t.grants mode .read with
  | true => exact .inl rfl
  | false =>
    rcases found with rfl | ⟨old, found⟩
    · cases readable.symm.trans (t.grants_fileMode (by simp))
    · refine .inr ⟨?_, rfl⟩
      rw [Tree.read, found]
      exact if_neg (by simp [readable])

/-- A file that was written can be written again. -/
theorem write_of_write {path : Text} (written : t.write path bytes = .ok u) (new : List UInt8) :
    ∃ v, u.write path new = .ok v := by
  obtain ⟨location, mode, found, same, writable, -⟩ := resolve_of_write written
  refine ⟨u.put location (.file new mode), ?_⟩
  rw [Tree.write, found]
  exact if_pos (by rwa [grants, same])

/-- A file that can be read is there. -/
theorem probe_of_read {path : Text} (read : t.read path = .ok bytes) :
    ∃ mode, t.probe path = .ok (some (.file bytes mode)) := by
  obtain ⟨location, mode, found, -⟩ := read_eq_ok_iff.mp read
  exact ⟨mode, by rw [probe, found]⟩

end Emend.Tree
