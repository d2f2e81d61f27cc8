import Emend.Proofs.Ways

/-!
# Scans of a text

All matches are found from left to right. A match is looked for at every offset
from where the last one ended, and the first way that counts there is taken; at
the offset where an empty match ended no other empty match counts. `Scans` says
this without a bound on the number of matches, and `findAll_scans` says that the
bound is never reached: from one match to the next either the offset grows, or an
empty match was taken and no second one can follow at its offset.

The matches of a scan are apart and their ranges increase strictly, whatever the
pattern is. Offsets at which nothing matches can be passed over.
-/

namespace Emend

/-- The spot of a text at an offset. -/
def Text.spot (text : Text) (offset : Nat) : Spot :=
  ⟨(text.take offset).reverse, text.drop offset, offset, []⟩

theorem Text.spot_in {text : Text} {offset : Nat} (reached : offset ≤ text.length) :
    (text.spot offset).In text where
  whole := by rw [spot, List.reverse_reverse, List.take_append_drop]
  counted := by rw [spot, List.length_reverse, List.length_take_of_le reached]

theorem Text.spot_append (front rest : Text) :
    (front ++ rest).spot front.length = ⟨front.reverse, rest, front.length, []⟩ := by
  simp [spot]

/-- A spot of a text is given by its offset, but for what the groups have matched. -/
theorem Spot.In.eq_spot {text : Text} {s : Spot} (inside : s.In text) :
    { s with captures := [] } = text.spot s.offset := by
  have width : s.offset = s.before.reverse.length := by rw [inside.counted, List.length_reverse]
  have front : text.take s.offset = s.before.reverse := by
    rw [← inside.whole]
    exact List.take_left' width.symm
  have back : text.drop s.offset = s.rest := by
    rw [← inside.whole]
    exact List.drop_left' width.symm
  rw [Text.spot, front, back, List.reverse_reverse]

namespace Match

/-- The range of a match ends before another one starts, and the ranges increase. -/
structure Before (m n : Match) : Prop where
  apart : m.stop ≤ n.start
  increasing : m.start < n.start ∨ m.start = n.start ∧ m.stop < n.stop

/-- The range of a match lies in a text. -/
structure Within (m : Match) (text : Text) : Prop where
  ordered : m.start ≤ m.stop
  inside : m.stop ≤ text.length

end Match

namespace Pattern

variable {text : Text} {p : Pattern}

/-- The first way to match at an offset; an empty one counts only if `mayBeEmpty` says so. -/
def firstWay (text : Text) (p : Pattern) (offset : Nat) (mayBeEmpty : Bool) : Option Spot :=
  (p.ways text (text.spot offset)).find? fun t => mayBeEmpty || t.offset != offset

/-- The first match from an offset on is at `place` and leads to `t`. -/
structure FirstMatch (text : Text) (p : Pattern) (start : Nat) (mayBeEmpty : Bool) (place : Nat)
    (t : Spot) : Prop where
  later : start ≤ place
  reached : place ≤ text.length
  way : firstWay text p place (mayBeEmpty || place != start) = some t
  first : ∀ k, start ≤ k → k < place → firstWay text p k (mayBeEmpty || k != start) = none

/-- The matches that are found from an offset on. -/
inductive Scans (text : Text) (p : Pattern) : Nat → Bool → List Match → Prop
  | done {start : Nat} {mayBeEmpty : Bool}
      (nowhere : ∀ k, start ≤ k → k ≤ text.length →
        firstWay text p k (mayBeEmpty || k != start) = none) :
      Scans text p start mayBeEmpty []
  | next {start place : Nat} {mayBeEmpty : Bool} {t : Spot} {found : List Match}
      (first : FirstMatch text p start mayBeEmpty place t)
      (rest : Scans text p t.offset (place != t.offset) found) :
      Scans text p start mayBeEmpty (⟨place, t.offset, t.captures⟩ :: found)

section Search

variable {s : Spot} {mayBeEmpty : Bool}

/-- What a search asks at its first spot. -/
theorem run_eq_firstWay (inside : s.In text) :
    (p.run text { s with captures := [] } fun s' =>
        if mayBeEmpty || s'.offset != s.offset then some s' else none) =
      firstWay text p s.offset mayBeEmpty := by
  rw [run_eq_findSome?, inside.eq_spot, firstWay, List.find?_eq_findSome?_guard]
  rfl

theorem search_of_firstWay (inside : s.In text) {t : Spot}
    (way : firstWay text p s.offset mayBeEmpty = some t) (rest : Text) :
    search text p rest s mayBeEmpty = some (⟨s.offset, t.offset, t.captures⟩, t) := by
  rw [search.eq_def]
  simp only [run_eq_firstWay inside, way]

theorem search_of_nowhere (inside : s.In text)
    (nowhere : firstWay text p s.offset mayBeEmpty = none) (c : Char) (rest : Text) :
    search text p (c :: rest) s mayBeEmpty = search text p rest s.next true := by
  rw [search]
  simp only [run_eq_firstWay inside, nowhere]

theorem search_at_end (inside : s.In text)
    (nowhere : firstWay text p s.offset mayBeEmpty = none) :
    search text p [] s mayBeEmpty = none := by
  rw [search]
  simp only [run_eq_firstWay inside, nowhere]

/-- A search finds the first match if there is one. The induction is on what
follows the spot; one character on, an empty match counts again. -/
theorem search_cases (p : Pattern) (mayBeEmpty : Bool) (inside : s.In text) :
    (∃ place t, FirstMatch text p s.offset mayBeEmpty place t ∧
        search text p s.rest s mayBeEmpty = some (⟨place, t.offset, t.captures⟩, t)) ∨
      search text p s.rest s mayBeEmpty = none ∧
        ∀ k, s.offset ≤ k → k ≤ text.length →
          firstWay text p k (mayBeEmpty || k != s.offset) = none := by
  generalize follows : s.rest = rest
  induction rest generalizing s mayBeEmpty with
  | nil =>
    have ended : s.offset = text.length := by
      rw [inside.counted, ← inside.whole, follows]
      simp
    cases way : firstWay text p s.offset mayBeEmpty with
    | none =>
      refine .inr ⟨search_at_end inside way, ?_⟩
      intro k later reached
      obtain rfl : k = s.offset := by omega
      simpa using way
    | some t =>
      refine .inl ⟨s.offset, t, ⟨Nat.le_refl _, inside.offset_le, by simpa using way, ?_⟩,
        search_of_firstWay inside way _⟩
      intro k later before
      omega
  | cons c rest inductionHypothesis =>
    have reads : s.Reads [c] s.next := Spot.reads_singleton_iff.mpr ⟨rest, follows, rfl⟩
    have onward : s.next.offset = s.offset + 1 := reads.offset
    have nextRest : s.next.rest = rest := by
      have same := follows.symm.trans reads.rest
      exact (List.cons.inj same).2.symm
    cases way : firstWay text p s.offset mayBeEmpty with
    | some t =>
      refine .inl ⟨s.offset, t, ⟨Nat.le_refl _, inside.offset_le, by simpa using way, ?_⟩,
        search_of_firstWay inside way _⟩
      intro k later before
      omega
    | none =>
      -- At the spot itself nothing counts, so both searches ask the same of every later offset.
      have here (k : Nat) (later : s.offset ≤ k) (passed : ¬ s.next.offset ≤ k) :
          firstWay text p k (mayBeEmpty || k != s.offset) = none := by
        obtain rfl : k = s.offset := by omega
        simpa using way
      have there (k : Nat) (later : s.next.offset ≤ k) :
          (mayBeEmpty || k != s.offset) = (true || k != s.next.offset) := by
        have other : k ≠ s.offset := by omega
        simp [other]
      rw [search_of_nowhere inside way]
      rcases inductionHypothesis true (reads.inside inside) nextRest with
        ⟨place, t, found, searched⟩ | ⟨searched, nowhere⟩
      · refine .inl ⟨place, t, ⟨?_, found.reached, ?_, ?_⟩, searched⟩
        · exact Nat.le_trans (by omega) found.later
        · rw [there place found.later]
          exact found.way
        · intro k later before
          by_cases passed : s.next.offset ≤ k
          · rw [there k passed]
            exact found.first k passed before
          · exact here k later passed
      · refine .inr ⟨searched, ?_⟩
        intro k later reached
        by_cases passed : s.next.offset ≤ k
        · rw [there k passed]
          exact nowhere k passed reached
        · exact here k later passed

end Search

/-- The way of a first match. -/
theorem FirstMatch.mem_ways {start place : Nat} {mayBeEmpty : Bool} {t : Spot}
    (first : FirstMatch text p start mayBeEmpty place t) :
    t ∈ p.ways text (text.spot place) := List.mem_of_find?_eq_some first.way

theorem FirstMatch.ahead {start place : Nat} {mayBeEmpty : Bool} {t : Spot}
    (first : FirstMatch text p start mayBeEmpty place t) :
    (text.spot place).Ahead text t := ways_ahead (Text.spot_in first.reached) first.mem_ways

/-- A first match that is empty and where the search started needs leave. -/
theorem FirstMatch.mayBeEmpty {start place : Nat} {mayBeEmpty : Bool} {t : Spot}
    (first : FirstMatch text p start mayBeEmpty place t) (here : place = start)
    (empty : t.offset = place) : mayBeEmpty = true := by
  have counts := List.find?_some first.way
  simpa [here, empty] using counts

theorem matchesFrom_scans {fuel : Nat} {s : Spot} {mayBeEmpty : Bool} (inside : s.In text)
    (enough : 2 * (text.length - s.offset) + mayBeEmpty.toNat < fuel) :
    Scans text p s.offset mayBeEmpty (matchesFrom text p fuel s mayBeEmpty) := by
  induction fuel generalizing s mayBeEmpty with
  | zero => exact absurd enough (Nat.not_lt_zero _)
  | succ fuel inductionHypothesis =>
    rw [matchesFrom]
    rcases search_cases p mayBeEmpty inside with
      ⟨place, t, first, searched⟩ | ⟨searched, nowhere⟩
    · simp only [searched]
      have ahead := first.ahead
      have later := first.later
      have onward : place ≤ t.offset := ahead.onward
      have reached := ahead.inside.offset_le
      refine .next first (inductionHypothesis ahead.inside ?_)
      by_cases moved : s.offset < t.offset
      · have flag := Bool.toNat_le (place != t.offset)
        omega
      · have leave := first.mayBeEmpty (by omega) (by omega)
        have still : (place != t.offset) = false := by
          rw [bne_eq_false_iff_eq]
          omega
        rw [leave, Bool.toNat_true] at enough
        rw [still, Bool.toNat_false]
        omega
    · simp only [searched]
      exact .done nowhere

/-- All matches of a text are those of a scan from its start. -/
theorem findAll_scans (p : Pattern) (text : Text) : Scans text p 0 true (p.findAll text) := by
  apply matchesFrom_scans (s := Spot.start text)
  · exact ⟨rfl, rfl⟩
  · rw [Bool.toNat_true, Spot.start]
    omega

/-- No match of a scan is before its start, and one that is there and empty needs
leave. The range of each is before those of all later ones. -/
theorem Scans.ordered {start : Nat} {mayBeEmpty : Bool} {found : List Match}
    (scans : Scans text p start mayBeEmpty found) :
    (∀ m ∈ found, start ≤ m.start ∧ m.Within text ∧
        (m.start = start → m.stop = m.start → mayBeEmpty = true)) ∧
      found.Pairwise Match.Before := by
  induction scans with
  | done => simp
  | next first rest inductionHypothesis =>
    rename_i start place mayBeEmpty t found
    obtain ⟨each, pairwise⟩ := inductionHypothesis
    have later := first.later
    have onward : place ≤ t.offset := first.ahead.onward
    constructor
    · intro m member
      rcases List.mem_cons.mp member with rfl | member
      · exact ⟨later, ⟨onward, first.ahead.inside.offset_le⟩, first.mayBeEmpty⟩
      · obtain ⟨ahead, within, -⟩ := each m member
        refine ⟨by omega, within, ?_⟩
        intro here empty
        exact first.mayBeEmpty (by omega) (by omega)
    · refine List.pairwise_cons.mpr ⟨?_, pairwise⟩
      intro m member
      obtain ⟨ahead, within, leave⟩ := each m member
      have ordered := within.ordered
      refine ⟨ahead, ?_⟩
      show place < m.start ∨ place = m.start ∧ t.offset < m.stop
      by_cases further : place < m.start
      · exact .inl further
      · refine .inr ⟨by omega, ?_⟩
        apply Nat.lt_of_not_le
        intro short
        have moved := leave (by omega) (by omega)
        rw [bne_iff_ne] at moved
        omega

/-- Every match of a scan is a way to match where it starts. -/
theorem Scans.mem_ways {start : Nat} {mayBeEmpty : Bool} {found : List Match}
    (scans : Scans text p start mayBeEmpty found) {m : Match} (member : m ∈ found) :
    m.start ≤ text.length ∧
      ∃ t ∈ p.ways text (text.spot m.start), t.offset = m.stop ∧ t.captures = m.captures := by
  induction scans with
  | done => cases member
  | next first rest inductionHypothesis =>
    rcases List.mem_cons.mp member with rfl | member
    · exact ⟨first.reached, _, first.mem_ways, rfl, rfl⟩
    · exact inductionHypothesis member

/-- The matches of a text, in the order in which they are found. -/
theorem findAll_pairwise (p : Pattern) (text : Text) : (p.findAll text).Pairwise Match.Before :=
  (findAll_scans p text).ordered.2

theorem findAll_within {m : Match} (member : m ∈ p.findAll text) : m.Within text :=
  ((findAll_scans p text).ordered.1 m member).2.1

/-- Offsets at which nothing matches can be passed over. -/
theorem Scans.skip {start later : Nat} {mayBeEmpty : Bool} {found : List Match}
    (scans : Scans text p start mayBeEmpty found) (onward : start ≤ later)
    (clear : ∀ k, start ≤ k → k < later → p.ways text (text.spot k) = []) :
    Scans text p later (mayBeEmpty || later != start) found := by
  have same (k : Nat) (beyond : later ≤ k) :
      ((mayBeEmpty || later != start) || k != later) = (mayBeEmpty || k != start) := by
    by_cases here : k = later
    · rw [here, bne_self_eq_false, Bool.or_false]
    · have moved : k ≠ start := by omega
      rw [bne_iff_ne.mpr here, bne_iff_ne.mpr moved, Bool.or_true, Bool.or_true]
  cases scans with
  | done nowhere =>
    refine .done ?_
    intro k beyond reached
    rw [same k beyond]
    exact nowhere k (Nat.le_trans onward beyond) reached
  | next first rest =>
    rename_i place t found
    have beyond : later ≤ place := by
      apply Nat.le_of_not_lt
      intro before
      have way := first.mem_ways
      rw [clear place first.later before] at way
      cases way
    refine .next ⟨beyond, first.reached, ?_, ?_⟩ rest
    · rw [same place beyond]
      exact first.way
    · intro k passed before
      rw [same k passed]
      exact first.first k (Nat.le_trans onward passed) before

/-- Where nothing matches, nothing is found. -/
theorem Scans.eq_nil {start : Nat} {mayBeEmpty : Bool} {found : List Match}
    (scans : Scans text p start mayBeEmpty found)
    (clear : ∀ k, start ≤ k → k ≤ text.length → p.ways text (text.spot k) = []) : found = [] := by
  cases scans with
  | done => rfl
  | next first rest =>
    have way := first.mem_ways
    rw [clear _ first.later first.reached] at way
    cases way

/-- Where there is a way to match that is not empty, the scan has found a match that reaches
beyond. -/
theorem Scans.covers {start k : Nat} {mayBeEmpty : Bool} {found : List Match} {t : Spot}
    (scans : Scans text p start mayBeEmpty found) (later : start ≤ k) (reached : k ≤ text.length)
    (way : t ∈ p.ways text (text.spot k)) (moved : t.offset ≠ k) :
    ∃ m ∈ found, m.start ≤ k ∧ k < m.stop := by
  have counts (flag : Bool) : firstWay text p k flag ≠ none := by
    intro missed
    have refused := List.find?_eq_none.mp missed t way
    simp [moved] at refused
  induction scans with
  | done nowhere => exact absurd (nowhere k later reached) (counts _)
  | @next start place mayBeEmpty t' found first rest inductionHypothesis =>
    have onward : place ≤ k := by
      apply Nat.le_of_not_lt
      intro before
      exact counts _ (first.first k later before)
    by_cases inside : k < t'.offset
    · exact ⟨_, List.mem_cons_self, onward, inside⟩
    · obtain ⟨m, member, covered⟩ := inductionHypothesis (Nat.le_of_not_lt inside)
      exact ⟨m, List.mem_cons_of_mem _ member, covered⟩

/-- The only way to match where a scan starts is found first, if it is not empty. -/
theorem Scans.eq_cons {start : Nat} {mayBeEmpty : Bool} {found : List Match} {t : Spot}
    (scans : Scans text p start mayBeEmpty found) (reached : start ≤ text.length)
    (way : t ∈ p.ways text (text.spot start))
    (only : ∀ t' ∈ p.ways text (text.spot start), t' = t) (moved : t.offset ≠ start) :
    ∃ rest, found = ⟨start, t.offset, t.captures⟩ :: rest ∧ Scans text p t.offset true rest := by
  have here (flag : Bool) : firstWay text p start flag = some t := by
    cases counts : firstWay text p start flag with
    | none =>
      have refused := List.find?_eq_none.mp counts t way
      simp [moved] at refused
    | some t' => rw [only t' (List.mem_of_find?_eq_some counts)]
  cases scans with
  | done nowhere =>
    have missed := nowhere start (Nat.le_refl _) reached
    rw [here] at missed
    cases missed
  | next first rest =>
    rename_i place t' found
    have there : place = start := by
      apply Nat.le_antisymm _ first.later
      apply Nat.le_of_not_lt
      intro later
      have missed := first.first start (Nat.le_refl _) later
      rw [here] at missed
      cases missed
    subst there
    have same := first.way
    rw [here] at same
    cases same
    have differs : (place != t.offset) = true := bne_iff_ne.mpr (Ne.symm moved)
    rw [differs] at rest
    exact ⟨found, rfl, rest⟩

end Pattern

end Emend
