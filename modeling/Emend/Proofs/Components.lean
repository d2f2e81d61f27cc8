import Emend.Path

/-!
# Components of paths

A path is read by cutting it at its slashes, and written by joining names with
slashes. Both directions agree on names that hold no slash. The components that
count (`Path.parts`) do not see empty ones and single points, so joining a name
to a directory adds that name to them, with or without a slash at the end of the
directory, and the normal form of a path has the components of the path.
-/

namespace Emend

namespace Text

/-- Cutting finds at least one part. -/
theorem splitAt_ne_nil (separator : Char) (t : Text) : t.splitAt separator ≠ [] := by
  cases t with
  | nil => simp [splitAt]
  | cons c rest =>
    rw [splitAt]
    split
    · simp
    · split <;> simp

/-- A part does not hold the character at which the text was cut. -/
theorem not_mem_of_mem_splitAt {separator : Char} {t part : Text}
    (member : part ∈ t.splitAt separator) : separator ∉ part := by
  induction t generalizing part with
  | nil => simp_all [splitAt]
  | cons c rest inductionHypothesis =>
    rw [splitAt] at member
    split at member
    · rcases List.mem_cons.mp member with rfl | member
      · exact List.not_mem_nil
      · exact inductionHypothesis member
    · rename_i different
      cases split : splitAt separator rest with
      | nil => exact absurd split (splitAt_ne_nil separator rest)
      | cons first others =>
        rw [split] at member inductionHypothesis
        rcases List.mem_cons.mp member with rfl | member
        · have apart := inductionHypothesis List.mem_cons_self
          simp only [List.mem_cons, not_or]
          exact ⟨Ne.symm different, apart⟩
        · exact inductionHypothesis (List.mem_cons_of_mem _ member)

/-- A text without the character is one part. -/
theorem splitAt_of_not_mem {separator : Char} {t : Text} (absent : separator ∉ t) :
    t.splitAt separator = [t] := by
  induction t with
  | nil => rfl
  | cons c rest inductionHypothesis =>
    simp only [List.mem_cons, not_or] at absent
    rw [splitAt, if_neg (Ne.symm absent.1), inductionHypothesis absent.2]

/-- The character between two texts separates their parts. -/
theorem splitAt_append (separator : Char) (left right : Text) :
    (left ++ separator :: right).splitAt separator =
      left.splitAt separator ++ right.splitAt separator := by
  induction left with
  | nil => simp [splitAt]
  | cons c rest inductionHypothesis =>
    rw [List.cons_append, splitAt, splitAt, inductionHypothesis]
    split
    · rfl
    · cases split : splitAt separator rest with
      | nil => exact absurd split (splitAt_ne_nil separator rest)
      | cons first others => rfl

/-- Cutting a joined text gives back its parts. -/
theorem splitAt_joinWith {separator : Char} {parts : List Text} (some : parts ≠ [])
    (absent : ∀ part ∈ parts, separator ∉ part) :
    (joinWith [separator] parts).splitAt separator = parts := by
  induction parts with
  | nil => exact absurd rfl some
  | cons part rest inductionHypothesis =>
    have here := splitAt_of_not_mem (absent part List.mem_cons_self)
    cases rest with
    | nil => exact here
    | cons next others =>
      have tail := inductionHypothesis (by simp) fun p member =>
        absent p (List.mem_cons_of_mem _ member)
      rw [joinWith, List.append_assoc, List.singleton_append, splitAt_append, here, tail]
      · rfl
      · simp

end Text

namespace Path

/-- Names that an entry of a directory can have: not empty, neither one point
nor two, without a slash and not too long. -/
def isName (name : Text) : Bool :=
  !isIdle name && name ≠ ['.', '.'] && !name.contains '/' && !isLongName name

/-- What the name of an entry is not. -/
theorem isName_iff (name : Text) :
    isName name = true ↔
      isIdle name = false ∧ name ≠ ['.', '.'] ∧ '/' ∉ name ∧ isLongName name = false := by
  simp [isName, and_assoc]

/-- Components that count hold no slash and say something. -/
theorem of_mem_parts {path component : Text} (member : component ∈ parts path) :
    '/' ∉ component ∧ isIdle component = false := by
  obtain ⟨cut, counts⟩ := List.mem_filter.mp member
  exact ⟨Text.not_mem_of_mem_splitAt cut, by simpa using counts⟩

/-- A name below a directory adds itself to the components. -/
theorem parts_join {name : Text} (named : isName name = true) (directory : Text) :
    parts (join directory name) = parts directory ++ [name] := by
  obtain ⟨counts, _, slashless, _⟩ := (isName_iff name).mp named
  have relative : name.head? ≠ some '/' := fun first => slashless (List.mem_of_head? first)
  have alone : parts name = [name] := by
    simp [parts, Text.splitAt_of_not_mem slashless, counts]
  have below (outer : Text) : parts (outer ++ '/' :: name) = parts outer ++ [name] := by
    rw [parts, Text.splitAt_append, List.filter_append]
    exact congrArg (parts outer ++ ·) alone
  rw [join, if_neg relative]
  split
  · rename_i bare
    rcases Bool.or_eq_true_iff.mp bare with empty | slash
    · have empty : directory = [] := by simpa using empty
      subst empty
      exact alone
    · -- The slash is there already: it closes the directory with an idle component.
      obtain ⟨outer, rfl⟩ := List.getLast?_eq_some_iff.mp (by simpa using slash)
      have closed : parts (outer ++ ['/']) = parts outer := by
        rw [parts, Text.splitAt_append, List.filter_append]
        simp [Text.splitAt, isIdle, parts]
      rw [closed, List.append_assoc, List.singleton_append, below]
  · exact below directory

/-- What lies below a directory is read from where the directory is read. -/
theorem base_join {name : Text} (named : isName name = true) (start : List Text)
    (directory : Text) : base start (join directory name) = base start directory := by
  obtain ⟨_, _, slashless, _⟩ := (isName_iff name).mp named
  have relative : name.head? ≠ some '/' := fun first => slashless (List.mem_of_head? first)
  rw [join, if_neg relative]
  cases directory with
  | nil => simp [base, relative]
  | cons first rest => split <;> simp [base]

/-- A path has a root exactly if it begins with a slash; the root is one slash or two. -/
theorem root_cases (path : Text) :
    (path.head? ≠ some '/' ∧ root path = []) ∨
      path.head? = some '/' ∧ (root path = ['/'] ∨ root path = ['/', '/']) := by
  unfold root
  split
  · exact .inr ⟨rfl, .inl rfl⟩
  · exact .inr ⟨rfl, .inr rfl⟩
  · exact .inr ⟨rfl, .inl rfl⟩
  · rename_i relative
    refine .inl ⟨?_, rfl⟩
    intro first
    obtain ⟨rest, rfl⟩ := List.head?_eq_some_iff.mp first
    exact relative rest rfl

/-- Joined components are read as they were, from where their text is met. -/
theorem joinWith_parts {path : Text} (some : parts path ≠ []) :
    (Text.joinWith ['/'] (parts path)).splitAt '/' = parts path ∧
      (Text.joinWith ['/'] (parts path)).head? ≠ Option.some '/' ∧
      Text.joinWith ['/'] (parts path) ≠ [] := by
  have cut : (Text.joinWith ['/'] (parts path)).splitAt '/' = parts path :=
    Text.splitAt_joinWith some fun part member => (of_mem_parts member).1
  have counts : ∀ part ∈ (Text.joinWith ['/'] (parts path)).splitAt '/', isIdle part = false :=
    fun part member => (of_mem_parts (cut ▸ member)).2
  refine ⟨cut, ?_, ?_⟩
  · -- A slash in front would cut off an idle component.
    intro slash
    obtain ⟨rest, begins⟩ := List.head?_eq_some_iff.mp slash
    rw [begins] at counts
    exact absurd (counts [] (by simp [Text.splitAt])) (by decide)
  · intro empty
    rw [empty] at counts
    exact absurd (counts [] (by simp [Text.splitAt])) (by decide)

/-- The normal form of a path has the components of the path, after empty ones for its root,
and it is read from where the path is read. -/
theorem normalize_components {path : Text} (some : parts path ≠ []) :
    normalize path ≠ [] ∧ (∀ directory, base directory (normalize path) = base directory path) ∧
      ∃ count, (normalize path).splitAt '/' = List.replicate count [] ++ parts path := by
  obtain ⟨cut, relative, proper⟩ := joinWith_parts some
  have same : normalize path = root path ++ Text.joinWith ['/'] (parts path) := by
    rw [normalize]
    split
    · rename_i empty
      exact absurd (List.append_eq_nil_iff.mp empty).2 proper
    · rfl
  rw [same]
  rcases root_cases path with ⟨start, none⟩ | ⟨start, one | two⟩
  · rw [none, List.nil_append]
    exact ⟨proper, fun directory => by simp [base, start, relative], 0, cut⟩
  · rw [one]
    refine ⟨by simp, fun directory => by simp [base, start], 1, ?_⟩
    simp [Text.splitAt, cut]
  · rw [two]
    refine ⟨by simp, fun directory => by simp [base, start], 2, ?_⟩
    simp [Text.splitAt, cut]

end Path

end Emend
