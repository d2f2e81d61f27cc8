import Emend.Proofs.Components
import Emend.Proofs.DirectoryListings

/-!
# Paths that are ignored by default

The globs that are ignored unless others are given have a name between slashes and stars
around it. A star crosses slashes, so such a glob matches exactly the texts that hold the
name between two slashes. It is tried with a slash in front of the path as well, and then a
path is matched exactly if the name is one of its components and not the last one: the first
component has a slash before it too, and only the last has none after it.

The normal form of a path has the components of the path that count, after empty ones for its
root; a path without any is a single point. So the default globs test components: a path is
ignored if it leads through a directory with one of four names. A file of that name is not,
nor what is in a directory whose name only contains it.
-/

namespace Emend

namespace Glob

/-- A character that stands for itself in a glob. -/
def isPlain (c : Char) : Bool := c ≠ '*' && c ≠ '?' && c ≠ '['

/-- Plain characters are read one by one. -/
theorem piecesFrom_plain {literal : Text} (plain : ∀ c ∈ literal, isPlain c = true)
    (count : Nat) (rest : Text) :
    piecesFrom (literal.length + count) (literal ++ rest) =
      literal.map .char ++ piecesFrom count rest := by
  induction literal with
  | nil => simp
  | cons c literal inductionHypothesis =>
    have here : c ≠ '*' ∧ c ≠ '?' ∧ c ≠ '[' := by
      simpa [isPlain, and_assoc] using plain c List.mem_cons_self
    have further := inductionHypothesis fun d member => plain d (List.mem_cons_of_mem c member)
    rw [List.length_cons, Nat.add_right_comm, List.cons_append, piecesFrom, further]
    · rfl
    · exact here.1
    · exact here.2.1
    · exact here.2.2

/-- A test holds of some end of a text. -/
theorem someEnd_iff (test : Text → Bool) (t : Text) :
    someEnd test t = true ↔ ∃ rest, rest <:+ t ∧ test rest = true := by
  induction t with
  | nil => simp [someEnd]
  | cons c t inductionHypothesis =>
    rw [someEnd, Bool.or_eq_true, inductionHypothesis]
    constructor
    · rintro (whole | ⟨rest, ends, holds⟩)
      · exact ⟨c :: t, List.suffix_refl _, whole⟩
      · exact ⟨rest, ends.trans (List.suffix_cons c t), holds⟩
    · rintro ⟨rest, ends, holds⟩
      rcases List.suffix_cons_iff.mp ends with rfl | ends
      · exact .inl holds
      · exact .inr ⟨rest, ends, holds⟩

theorem fits_star_iff (others : List GlobPiece) (t : Text) :
    fits (.star :: others) t = true ↔ ∃ rest, rest <:+ t ∧ fits others rest = true :=
  someEnd_iff (fits others) t

/-- Literal characters stand for themselves, in front of what the other pieces stand for. -/
theorem fits_literal_iff (literal : Text) (others : List GlobPiece) (t : Text) :
    fits (literal.map .char ++ others) t = true ↔
      ∃ rest, t = literal ++ rest ∧ fits others rest = true := by
  induction literal generalizing t with
  | nil => simp
  | cons c literal inductionHypothesis =>
    cases t with
    | nil => simp [fits]
    | cons d t =>
      simp only [List.map_cons, List.cons_append, fits, accepts, Bool.and_eq_true,
        decide_eq_true_eq, inductionHypothesis, List.cons.injEq]
      constructor
      · rintro ⟨same, rest, follows, fitting⟩
        exact ⟨rest, ⟨same, follows⟩, fitting⟩
      · rintro ⟨rest, ⟨same, follows⟩, fitting⟩
        exact ⟨same, rest, follows, fitting⟩

/-- The glob with two stars on each side of a text. -/
def around (literal : Text) : Text := "**".toList ++ literal ++ "**".toList

theorem pieces_around {literal : Text} (plain : ∀ c ∈ literal, isPlain c = true) :
    pieces (around literal) =
      [.star, .star] ++ (literal.map .char ++ [.star, .star]) := by
  have read := piecesFrom_plain plain 2 ['*', '*']
  have length : (around literal).length = literal.length + 2 + 1 + 1 := by simp [around]
  have glob : around literal = '*' :: '*' :: (literal ++ ['*', '*']) := by simp [around]
  rw [pieces, length, glob, piecesFrom, piecesFrom, read]
  rfl

/-- Stars on both sides match the texts that hold what is between them. -/
theorem covers_around_iff {literal : Text} (plain : ∀ c ∈ literal, isPlain c = true) (t : Text) :
    covers (around literal) t = true ↔ literal <:+: t := by
  have rest (t : Text) : fits [.star, .star] t = true := by
    rw [fits_star_iff]
    exact ⟨[], List.nil_suffix, rfl⟩
  rw [covers_eq_fits, pieces_around plain, List.cons_append, List.cons_append, List.nil_append,
    fits_star_iff]
  simp only [fits_star_iff, fits_literal_iff, rest, and_true]
  constructor
  · rintro ⟨middle, ends, back, ends', after, rfl⟩
    exact (List.prefix_append literal after).isInfix.trans (ends'.trans ends).isInfix
  · rintro ⟨front, back, rfl⟩
    exact ⟨_, List.suffix_refl _, literal ++ back, ⟨front, by simp⟩, back, rfl⟩

end Glob

namespace Text

/-- A joined text with the separator in front has the separator in front of every part. -/
theorem cons_joinWith (separator : Char) {parts : List Text} (some : parts ≠ []) :
    separator :: joinWith [separator] parts = (parts.map (List.cons separator)).flatten := by
  fun_induction joinWith [separator] parts with
  | case1 => exact absurd rfl some
  | case2 part => simp
  | case3 part rest other inductionHypothesis =>
    rw [List.map_cons, List.flatten_cons, ← inductionHypothesis (by simpa using other)]
    simp

/-- Joining the parts of a text gives it back. -/
theorem joinWith_splitAt (separator : Char) (t : Text) :
    joinWith [separator] (t.splitAt separator) = t := by
  induction t with
  | nil => rfl
  | cons c rest inductionHypothesis =>
    rw [splitAt]
    cases split : splitAt separator rest with
    | nil => exact absurd split (splitAt_ne_nil separator rest)
    | cons first others =>
      rw [split] at inductionHypothesis
      by_cases same : c = separator
      · rw [if_pos same, joinWith, inductionHypothesis, same]
        · rfl
        · simp
      · rw [if_neg same]
        cases others with
        | nil => exact congrArg (List.cons c) inductionHypothesis
        | cons next others => exact congrArg (List.cons c) inductionHypothesis

/-- A part before the last one is what stands between two separators, counting one in front of
the text. -/
theorem mem_dropLast_splitAt_iff {separator : Char} {name : Text} (apart : separator ∉ name)
    (t : Text) :
    name ∈ (t.splitAt separator).dropLast ↔
      separator :: (name ++ [separator]) <:+: separator :: t := by
  constructor
  · intro member
    have some := splitAt_ne_nil separator t
    have cut := cons_joinWith separator some
    rw [joinWith_splitAt] at cut
    obtain ⟨front, between, split⟩ := List.append_of_mem member
    -- A part follows the name, so there is a separator after it too.
    obtain ⟨next, later, follow⟩ :=
      List.exists_cons_of_ne_nil (List.append_ne_nil_of_right_ne_nil between
        (List.cons_ne_nil ((t.splitAt separator).getLast some) []))
    rw [← List.dropLast_concat_getLast some, split, List.append_assoc, List.cons_append, follow]
      at cut
    rw [cut]
    exact ⟨(front.map (List.cons separator)).flatten,
      next ++ (later.map (List.cons separator)).flatten, by simp⟩
  · rintro ⟨front, back, whole⟩
    have more := splitAt_ne_nil separator back
    cases front with
    | nil =>
      have cut : t = name ++ separator :: back := by simpa using whole.symm
      rw [cut, splitAt_append, splitAt_of_not_mem apart, List.dropLast_append_of_ne_nil more]
      simp
    | cons c front =>
      have cut : t = front ++ separator :: (name ++ separator :: back) := by
        simpa using (List.cons.inj whole).2.symm
      rw [cut, splitAt_append, splitAt_append, splitAt_of_not_mem apart, ← List.append_assoc,
        List.dropLast_append_of_ne_nil more]
      simp

/-- Separators in front of a text make empty parts. -/
theorem splitAt_replicate_append (separator : Char) (count : Nat) (t : Text) :
    splitAt separator (List.replicate count separator ++ t) =
      List.replicate count [] ++ splitAt separator t := by
  induction count with
  | zero => rfl
  | succ count inductionHypothesis =>
    rw [List.replicate_succ, List.cons_append, splitAt, if_pos rfl, inductionHypothesis]
    rfl

end Text

namespace Path

/-- The root of a path is made of slashes. -/
theorem root_eq_replicate (path : Text) : ∃ count, root path = List.replicate count '/' := by
  unfold root
  split
  · exact ⟨1, rfl⟩
  · exact ⟨2, rfl⟩
  · exact ⟨1, rfl⟩
  · exact ⟨0, rfl⟩

/-- The normal form of a path with components is its root and its components. -/
theorem normalize_eq_append {path : Text} (some : parts path ≠ []) :
    normalize path = root path ++ Text.joinWith ['/'] (parts path) := by
  unfold normalize
  split
  · rename_i empty
    have cut := Text.splitAt_joinWith some fun part member => (of_mem_parts member).1
    rw [(List.append_eq_nil_iff.mp empty).2] at cut
    have idle : [] ∈ parts path := cut ▸ List.mem_singleton_self []
    exact absurd (of_mem_parts idle).2 (by decide)
  · rfl

/-- The normal form of a path has the components that count, after some that say nothing. -/
theorem splitAt_normalize (path : Text) :
    ∃ idle : List Text, (∀ c ∈ idle, isIdle c = true) ∧
      (normalize path).splitAt '/' = idle ++ parts path := by
  obtain ⟨count, slashes⟩ := root_eq_replicate path
  have empty {count : Nat} {c : Text} (member : c ∈ List.replicate count ([] : Text)) :
      isIdle c = true := by
    rw [List.eq_of_mem_replicate member]
    decide
  by_cases none : parts path = []
  · rw [none, normalize, slashes, none, Text.joinWith, List.append_nil]
    cases count with
    | zero => exact ⟨[['.']], by decide, rfl⟩
    | succ count =>
      have split := Text.splitAt_replicate_append '/' (count + 1) []
      rw [List.append_nil] at split
      refine ⟨List.replicate (count + 2) [], fun c => empty, ?_⟩
      rw [List.append_nil, List.replicate_succ' (n := count + 1)]
      exact split
  · refine ⟨List.replicate count [], fun c => empty, ?_⟩
    rw [normalize_eq_append none, slashes, Text.splitAt_replicate_append,
      Text.splitAt_joinWith none fun part member => (of_mem_parts member).1]

/-- The components that count in a path are those of its normal form. -/
theorem parts_normalize (path : Text) : parts (normalize path) = parts path := by
  obtain ⟨idle, silent, split⟩ := splitAt_normalize path
  rw [parts, split, List.filter_append]
  have dropped : idle.filter (fun c => !isIdle c) = [] := by
    rw [List.filter_eq_nil_iff]
    intro c member
    simp [silent c member]
  rw [dropped, List.nil_append, parts, List.filter_filter]
  simp

theorem mem_dropLast_normalize_iff {name : Text} (counts : isIdle name = false) (path : Text) :
    name ∈ ((normalize path).splitAt '/').dropLast ↔ name ∈ (parts path).dropLast := by
  obtain ⟨idle, silent, split⟩ := splitAt_normalize path
  have other : name ∉ idle := fun member => by simp [silent name member] at counts
  rw [split]
  by_cases none : parts path = []
  · rw [none, List.append_nil]
    exact iff_of_false (fun member => other (List.dropLast_subset idle member)) List.not_mem_nil
  · rw [List.dropLast_append_of_ne_nil none, List.mem_append]
    exact or_iff_right other

end Path

namespace Query

/-- The glob for everything in directories of a name. -/
def below (name : Text) : Text := Glob.around ('/' :: (name ++ ['/']))

/-- Names that a glob can spell out: they count as components, and their characters stand for
themselves. -/
def isSpelled (name : Text) : Bool :=
  !Path.isIdle name && !name.contains '/' && name.all Glob.isPlain

theorem isSpelled_iff (name : Text) :
    isSpelled name = true ↔
      Path.isIdle name = false ∧ '/' ∉ name ∧ ∀ c ∈ name, Glob.isPlain c = true := by
  simp [isSpelled, and_assoc]

/-- A glob for what is in directories of a name matches the paths that lead through one. -/
theorem covers_below_iff {name : Text} (spelled : isSpelled name = true) (path : Text) :
    (Glob.covers (below name) (Path.normalize path) ||
        Glob.covers (below name) ('/' :: Path.normalize path)) = true ↔
      name ∈ (Path.parts path).dropLast := by
  obtain ⟨counts, slashless, letters⟩ := (isSpelled_iff name).mp spelled
  have plain : ∀ c ∈ '/' :: (name ++ ['/']), Glob.isPlain c = true := by
    intro c member
    rcases List.mem_cons.mp member with rfl | member
    · decide
    · rcases List.mem_append.mp member with member | member
      · exact letters c member
      · rw [List.mem_singleton.mp member]
        decide
  rw [Bool.or_eq_true, below, Glob.covers_around_iff plain, Glob.covers_around_iff plain,
    ← Path.mem_dropLast_normalize_iff counts, Text.mem_dropLast_splitAt_iff slashless]
  exact or_iff_right_of_imp fun inside => inside.trans (List.suffix_cons _ _).isInfix

/-- Globs for what is in directories of some names ignore the paths that lead through one. -/
theorem isIgnored_below {names : List Text} (spelled : ∀ name ∈ names, isSpelled name = true)
    (path : Text) :
    ∃ ignored, isIgnored ((names.map below).map .text) path = .ok ignored ∧
      (ignored = true ↔ ∃ name ∈ (Path.parts path).dropLast, name ∈ names) := by
  rw [isIgnored, ignoredBy_texts]
  refine ⟨_, rfl, ?_⟩
  rw [List.any_map, List.any_eq_true]
  constructor
  · rintro ⟨name, member, covered⟩
    exact ⟨name, (covers_below_iff (spelled name member) path).mp covered, member⟩
  · rintro ⟨name, inside, member⟩
    exact ⟨name, member, (covers_below_iff (spelled name member) path).mpr inside⟩

/-- The names of the directories that are passed over by default. -/
def ignoredNames : List Text :=
  [".git".toList, "__pycache__".toList, "node_modules".toList, ".venv".toList]

theorem defaultGlobs_eq : defaultGlobs = ignoredNames.map below := rfl

theorem isSpelled_of_ignored : ∀ name ∈ ignoredNames, isSpelled name = true :=
  List.all_eq_true.mp rfl

/-- By default a path is ignored exactly if one of its components other than the last has one
of four names. Components are those of the normal form: without empty ones and single
points. -/
theorem default_ignores_exact (path : Text) :
    (isIgnored (defaultGlobs.map .text) path = .ok true ↔
        ∃ name ∈ (Path.parts path).dropLast, name ∈ ignoredNames) ∧
      (isIgnored (defaultGlobs.map .text) path = .ok false ↔
        ¬ ∃ name ∈ (Path.parts path).dropLast, name ∈ ignoredNames) ∧
      Path.parts (Path.normalize path) = Path.parts path := by
  obtain ⟨ignored, tested, exact⟩ := isIgnored_below isSpelled_of_ignored path
  rw [defaultGlobs_eq, tested, Except.ok.injEq, Except.ok.injEq, ← exact]
  exact ⟨Iff.rfl, by simp, Path.parts_normalize path⟩

example : isIgnored (defaultGlobs.map .text) "./src//.git/hooks/".toList = .ok true := rfl

example : isIgnored (defaultGlobs.map .text) "src/my.venv/node_modules".toList = .ok false :=
  rfl

end Query

end Emend
