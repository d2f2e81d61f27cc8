import Emend.Pattern.Match
import Mathlib.Logic.Relation

/-!
# Ways to match

Matching hands the spot after each way to match to a continuation, until one is
accepted. The ways do not depend on the continuation, so they can be listed:
`ways` holds the spots in the order in which they are tried, and matching looks
for the first one that is accepted (`run_eq_findSome?`). What a pattern matches
is from here on a question of membership in this list.

Two facts hold of every pattern. A way never leads back, and it stays in the
text. Patterns without groups lead to a spot by what they read on the way there;
`Spot.Reads` says what was read, and one lemma for each kind of pattern says what
it can read. A repeated class of characters can read every stretch of its
characters: the bound on its rounds is never reached before the text ends.
-/

namespace Emend

namespace Spot

/-- A spot of a text: what precedes it and what follows it are the text, and its
offset counts what precedes it. -/
structure In (s : Spot) (text : Text) : Prop where
  whole : s.before.reverse ++ s.rest = text
  counted : s.offset = s.before.length

/-- A spot of a text that is not before another one. -/
structure Ahead (text : Text) (s t : Spot) : Prop where
  inside : t.In text
  onward : s.offset ≤ t.offset

/-- From one spot to another a text is read, and no group has matched. -/
structure Reads (s : Spot) (u : Text) (t : Spot) : Prop where
  rest : s.rest = u ++ t.rest
  before : t.before = u.reverse ++ s.before
  offset : t.offset = s.offset + u.length
  captures : t.captures = s.captures

variable {text : Text} {r s t : Spot}

/-- A spot lies in its text or at its end. -/
theorem In.offset_le (inside : s.In text) : s.offset ≤ text.length := by
  rw [inside.counted, ← inside.whole]
  simp

/-- The groups say nothing about the place. -/
theorem In.withCaptures (inside : s.In text) (captures : List (Nat × Nat × Nat)) :
    ({ s with captures } : Spot).In text :=
  ⟨inside.whole, inside.counted⟩

/-- To stay is not to go back. -/
theorem Ahead.refl (inside : s.In text) : Ahead text s s := ⟨inside, Nat.le_refl _⟩

/-- What is ahead of a spot ahead is ahead, which lets the rounds of a body be taken one by
one. -/
theorem Ahead.trans (first : Ahead text r s) (second : Ahead text s t) : Ahead text r t :=
  ⟨second.inside, Nat.le_trans first.onward second.onward⟩

/-- The next spot is one further, and at the end of the text it is the same one. -/
theorem next_ahead (inside : s.In text) : Ahead text s s.next := by
  rw [next.eq_def]
  split
  · exact .refl inside
  · rename_i c rest follows
    refine ⟨⟨?_, ?_⟩, Nat.le_succ _⟩
    · simp [← inside.whole, follows]
    · simp [inside.counted]

/-- Several steps onward, one by one. -/
theorem forward_ahead (inside : s.In text) (n : Nat) : Ahead text s (s.forward n) := by
  induction n generalizing s with
  | zero => exact .refl inside
  | succ n inductionHypothesis =>
    have step := next_ahead inside
    exact step.trans (inductionHypothesis step.inside)

/-- Nothing is read by staying. -/
theorem Reads.refl (s : Spot) : s.Reads [] s := ⟨rfl, rfl, rfl, rfl⟩

/-- What is read on two ways in a row is the one text and then the other. -/
theorem Reads.trans {u v : Text} (first : r.Reads u s) (second : s.Reads v t) :
    r.Reads (u ++ v) t where
  rest := by rw [first.rest, second.rest, List.append_assoc]
  before := by rw [second.before, first.before, List.reverse_append, List.append_assoc]
  offset := by rw [second.offset, first.offset, List.length_append, Nat.add_assoc]
  captures := second.captures.trans first.captures

/-- What is read leads to one spot only. -/
theorem Reads.unique {u : Text} (one : r.Reads u s) (other : r.Reads u t) : s = t := by
  have rest : s.rest = t.rest := List.append_cancel_left (one.rest.symm.trans other.rest)
  have before := one.before.trans other.before.symm
  have offset := one.offset.trans other.offset.symm
  have captures := one.captures.trans other.captures.symm
  cases s
  cases t
  simp_all

/-- Who reads nothing stays. -/
theorem Reads.eq_of_nil (reads : s.Reads [] t) : t = s := reads.unique (.refl s)

/-- A text that follows can be read. -/
theorem exists_reads {u rest : Text} (follows : s.rest = u ++ rest) :
    ∃ t, s.Reads u t ∧ t.rest = rest :=
  ⟨⟨u.reverse ++ s.before, rest, s.offset + u.length, s.captures⟩, ⟨follows, rfl, rfl, rfl⟩, rfl⟩

/-- A text is read piece by piece. -/
theorem reads_append_iff {u v : Text} :
    r.Reads (u ++ v) t ↔ ∃ s, r.Reads u s ∧ s.Reads v t := by
  constructor
  · intro reads
    obtain ⟨s, first, rest⟩ := exists_reads (reads.rest.trans (List.append_assoc u v t.rest))
    refine ⟨s, first, rest, ?_, ?_, ?_⟩
    · rw [reads.before, first.before, List.reverse_append, List.append_assoc]
    · rw [reads.offset, first.offset, List.length_append, Nat.add_assoc]
    · rw [reads.captures, first.captures]
  · rintro ⟨s, first, second⟩
    exact first.trans second

/-- To read one character is to go to the next spot, where there is one. -/
theorem reads_singleton_iff {c : Char} :
    s.Reads [c] t ↔ ∃ rest, s.rest = c :: rest ∧ t = s.next := by
  constructor
  · intro reads
    refine ⟨t.rest, reads.rest, reads.unique ?_⟩
    constructor <;> simp [next, reads.rest]
  · rintro ⟨rest, follows, rfl⟩
    constructor <;> simp [next, follows]

/-- Reading does not leave the text. -/
theorem Reads.inside {u : Text} (reads : s.Reads u t) (inside : s.In text) : t.In text where
  whole := by simp [reads.before, ← inside.whole, reads.rest]
  counted := by simp [reads.before, reads.offset, inside.counted, Nat.add_comm]

end Spot

/-- Looking through lists in a row is looking through each of them in turn; this is how a
continuation that is itself a search becomes a list of ways. -/
theorem findSome?_flatMap {α β γ : Type} (f : α → List β) (g : β → Option γ) (list : List α) :
    (list.flatMap f).findSome? g = list.findSome? fun a => (f a).findSome? g := by
  induction list with
  | nil => rfl
  | cons a rest inductionHypothesis =>
    rw [List.flatMap_cons, List.findSome?_append, inductionHypothesis, List.findSome?_cons]
    cases (f a).findSome? g <;> rfl

/-- The first of all is found if anything is accepted. -/
theorem findSome?_some {α : Type} (list : List α) : list.findSome? some = list.head? := by
  cases list <;> rfl

namespace Pattern

/-- The spots after rounds of a body, as many as possible first. -/
def mostWays (body : Spot → List Spot) (least : Nat) (most : Option Nat) :
    Nat → Nat → Option Nat → Spot → List Spot
  | 0, _, _, _ => []
  | fuel + 1, count, last, s =>
    if count < least then (body s).flatMap (mostWays body least most fuel (count + 1) last)
    else if allows most count && last != some s.offset then
      (body s).flatMap (mostWays body least most fuel (count + 1) (some s.offset)) ++ [s]
    else [s]

/-- The spots after rounds of a body, as few as possible first. -/
def fewestWays (body : Spot → List Spot) (least : Nat) (most : Option Nat) :
    Nat → Nat → Option Nat → Spot → List Spot
  | 0, _, _, _ => []
  | fuel + 1, count, last, s =>
    if count < least then (body s).flatMap (fewestWays body least most fuel (count + 1) last)
    else if allows most count && last != some s.offset then
      s :: (body s).flatMap (fewestWays body least most fuel (count + 1) (some s.offset))
    else [s]

/-- The spots after a match of the pattern at a spot of `text`, in the order in which they are
tried. -/
def ways (text : Text) : Pattern → Spot → List Spot
  | empty, s => [s]
  | one test, s =>
    match s.rest with
    | [] => []
    | c :: _ => if test.holds c then [s.next] else []
  | place anchor, s => if anchor.holds s then [s] else []
  | seq first second, s => (ways text first s).flatMap (ways text second)
  | either first second, s => ways text first s ++ ways text second s
  | group index body, s => (ways text body s).map (·.capture index s.offset)
  | same index casing, s =>
    match s.captured index with
    | none => []
    | some (start, stop) =>
      let part := text.slice start stop
      if casing.startsWith part s.rest then [s.forward part.length] else []
  | look back negated body, s =>
    match (s.back back).bind fun s' => (ways text body s').head? with
    | some found => if negated then [] else [{ s with captures := found.captures }]
    | none => if negated then [s] else []
  | atomic body, s => (ways text body s).head?.toList
  | ifGroup index yes no, s =>
    if (s.captured index).isSome then ways text yes s else ways text no s
  | times least most effort body, s =>
    let fuel := least + s.rest.length + 3
    match effort with
    | .most => mostWays (ways text body) least most fuel 0 none s
    | .fewest => fewestWays (ways text body) least most fuel 0 none s
    | .all =>
      (roundsAll (fun s accept => (ways text body s).findSome? accept) least most fuel 0 none
        s).toList

/-- The equation of a round, by name, so that proofs need not unfold the definition. -/
theorem mostWays_succ (body : Spot → List Spot) (least : Nat) (most : Option Nat)
    (fuel count : Nat) (last : Option Nat) (s : Spot) :
    mostWays body least most (fuel + 1) count last s =
      if count < least then (body s).flatMap (mostWays body least most fuel (count + 1) last)
      else if allows most count && last != some s.offset then
        (body s).flatMap (mostWays body least most fuel (count + 1) (some s.offset)) ++ [s]
      else [s] := rfl

/-- A repeated pattern starts its rounds with more fuel than there can be rounds that move.
-/
theorem ways_times_most (text : Text) (least : Nat) (most : Option Nat) (p : Pattern) (s : Spot) :
    (times least most .most p).ways text s =
      mostWays (p.ways text) least most (least + s.rest.length + 3) 0 none s := rfl

section Rounds

variable {body : Spot → Trial → Option Spot} {bodyWays : Spot → List Spot} {least : Nat}
  {most : Option Nat}

/-- Rounds that hand on to a continuation look through the listed rounds, if the body does.
The induction is on the fuel, which both spend alike. -/
theorem roundsMost_eq_findSome? (listed : ∀ s accept, body s accept = (bodyWays s).findSome? accept)
    (accept : Trial) (fuel count : Nat) (last : Option Nat) (s : Spot) :
    roundsMost body least most accept fuel count last s =
      (mostWays bodyWays least most fuel count last s).findSome? accept := by
  induction fuel generalizing count last s with
  | zero => rfl
  | succ fuel inductionHypothesis =>
    rw [roundsMost, mostWays_succ]
    have next (last : Option Nat) :
        body s (roundsMost body least most accept fuel (count + 1) last) =
          ((bodyWays s).flatMap (mostWays bodyWays least most fuel (count + 1) last)).findSome?
            accept := by
      rw [listed, findSome?_flatMap]
      exact congrArg (List.findSome? · _) (funext fun s => inductionHypothesis (count + 1) last s)
    split
    · exact next last
    · split
      · rw [next (some s.offset), List.findSome?_append, List.findSome?_singleton]
        cases List.findSome? accept _ <;> rfl
      · rw [List.findSome?_singleton]

/-- The same for as few rounds as possible: to stop is tried before another round instead of
after it. -/
theorem roundsFewest_eq_findSome?
    (listed : ∀ s accept, body s accept = (bodyWays s).findSome? accept)
    (accept : Trial) (fuel count : Nat) (last : Option Nat) (s : Spot) :
    roundsFewest body least most accept fuel count last s =
      (fewestWays bodyWays least most fuel count last s).findSome? accept := by
  induction fuel generalizing count last s with
  | zero => rfl
  | succ fuel inductionHypothesis =>
    rw [roundsFewest, fewestWays]
    have next (last : Option Nat) :
        body s (roundsFewest body least most accept fuel (count + 1) last) =
          ((bodyWays s).flatMap (fewestWays bodyWays least most fuel (count + 1) last)).findSome?
            accept := by
      rw [listed, findSome?_flatMap]
      exact congrArg (List.findSome? · _) (funext fun s => inductionHypothesis (count + 1) last s)
    split
    · exact next last
    · rw [next (some s.offset)]
      by_cases further : (allows most count && last != some s.offset) = true
      · rw [if_pos further, if_pos further, List.findSome?_cons]
        cases accept s <;> rfl
      · rw [if_neg further, if_neg further, List.findSome?_singleton]
        cases accept s <;> rfl

end Rounds

/-- Matching looks for the first way that is accepted. -/
theorem run_eq_findSome? (text : Text) (p : Pattern) (s : Spot) (accept : Trial) :
    p.run text s accept = (p.ways text s).findSome? accept := by
  induction p generalizing s accept with
  | empty => rw [run, ways, List.findSome?_singleton]
  | one test =>
    rw [run, ways]
    cases s.rest with
    | nil => rfl
    | cons c rest => by_cases passes : test.holds c = true <;> simp [passes]
  | place anchor =>
    rw [run, ways]
    by_cases holds : anchor.holds s = true <;> simp [holds]
  | seq first second firstListed secondListed =>
    rw [run, ways, firstListed, findSome?_flatMap]
    exact congrArg (List.findSome? · _) (funext fun s' => secondListed s' accept)
  | either first second firstListed secondListed =>
    rw [run, ways, firstListed, secondListed, List.findSome?_append]
    cases List.findSome? accept (ways text first s) <;> rfl
  | group index body listed =>
    rw [run, ways, listed, List.findSome?_map]
    rfl
  | same index casing =>
    rw [run, ways]
    cases s.captured index with
    | none => rfl
    | some range =>
      by_cases again : casing.startsWith (text.slice range.1 range.2) s.rest = true <;>
        simp [again]
  | look back negated body listed =>
    have first : (fun s' => body.run text s' some) = fun s' => (body.ways text s').head? :=
      funext fun s' => by rw [listed, findSome?_some]
    rw [run, ways, first]
    cases (s.back back).bind fun s' => (body.ways text s').head? <;> cases negated <;> simp
  | atomic body listed =>
    rw [run, ways, listed, findSome?_some]
    cases (body.ways text s).head? <;> simp
  | ifGroup index yes no yesListed noListed =>
    rw [run, ways, yesListed, noListed]
    by_cases took : (s.captured index).isSome = true <;> simp [took]
  | times least most effort body listed =>
    cases effort with
    | most =>
      rw [run, ways]
      exact roundsMost_eq_findSome? listed accept _ 0 none s
    | fewest =>
      rw [run, ways]
      exact roundsFewest_eq_findSome? listed accept _ 0 none s
    | all =>
      have same : (fun s accept => body.run text s accept) =
          fun s accept => (body.ways text s).findSome? accept :=
        funext fun s => funext fun accept => listed s accept
      rw [run, ways, same]
      cases roundsAll _ least most _ 0 none s <;> simp

section Reach

variable {text : Text} {least : Nat} {most : Option Nat}

/-- A spot that a round of a body leads to, and so on. -/
abbrev Reaches (body : Spot → List Spot) : Spot → Spot → Prop :=
  Relation.ReflTransGen fun s t => t ∈ body s

variable {body : Spot → List Spot} {s t : Spot}

/-- However many rounds there are, each of them is a way of the body; the bounds and the
last offset only stop them. -/
theorem reaches_of_mem_mostWays {fuel count : Nat} {last : Option Nat}
    (way : t ∈ mostWays body least most fuel count last s) : Reaches body s t := by
  induction fuel generalizing count last s with
  | zero => cases way
  | succ fuel inductionHypothesis =>
    have further {last : Option Nat}
        (way : t ∈ (body s).flatMap (mostWays body least most fuel (count + 1) last)) :
        Reaches body s t := by
      obtain ⟨m, first, later⟩ := List.mem_flatMap.mp way
      exact .head first (inductionHypothesis later)
    rw [mostWays_succ] at way
    split at way
    · exact further way
    · split at way
      · rcases List.mem_append.mp way with way | way
        · exact further way
        · rw [List.mem_singleton.mp way]
      · rw [List.mem_singleton.mp way]

/-- The order of the rounds makes no difference to this. -/
theorem reaches_of_mem_fewestWays {fuel count : Nat} {last : Option Nat}
    (way : t ∈ fewestWays body least most fuel count last s) : Reaches body s t := by
  induction fuel generalizing count last s with
  | zero => cases way
  | succ fuel inductionHypothesis =>
    have further {last : Option Nat}
        (way : t ∈ (body s).flatMap (fewestWays body least most fuel (count + 1) last)) :
        Reaches body s t := by
      obtain ⟨m, first, later⟩ := List.mem_flatMap.mp way
      exact .head first (inductionHypothesis later)
    rw [fewestWays] at way
    split at way
    · exact further way
    · split at way
      · rcases List.mem_cons.mp way with rfl | way
        · exact .refl
        · exact further way
      · rw [List.mem_singleton.mp way]

/-- Nor does it if only the first way of each round is kept. -/
theorem reaches_of_roundsAll {fuel count : Nat} {last : Option Nat}
    (found : roundsAll (fun s accept => (body s).findSome? accept) least most fuel count last s =
      some t) : Reaches body s t := by
  induction fuel generalizing count last s with
  | zero => cases found
  | succ fuel inductionHypothesis =>
    have taken {m : Spot} (first : (body s).findSome? some = some m) : m ∈ body s := by
      rw [findSome?_some] at first
      exact List.mem_of_mem_head? first
    rw [roundsAll] at found
    split at found
    · split at found
      · rename_i m first
        exact .head (taken first) (inductionHypothesis found)
      · cases found
    · split at found
      · split at found
        · rename_i m first
          exact .head (taken first) (inductionHypothesis found)
        · cases found
          exact .refl
      · cases found
        exact .refl

/-- Rounds do not go back if the body does not. -/
theorem Reaches.ahead
    (bodyAhead : ∀ {s t : Spot}, s.In text → t ∈ body s → s.Ahead text t) (inside : s.In text)
    (reaches : Reaches body s t) : s.Ahead text t := by
  induction reaches with
  | refl => exact .refl inside
  | tail _ step inductionHypothesis =>
    exact inductionHypothesis.trans (bodyAhead inductionHypothesis.inside step)

/-- No way leads back, and none leaves the text. -/
theorem ways_ahead {p : Pattern} (inside : s.In text) (way : t ∈ p.ways text s) :
    s.Ahead text t := by
  induction p generalizing s t with
  | empty =>
    rw [ways, List.mem_singleton] at way
    subst way
    exact .refl inside
  | one test =>
    rw [ways] at way
    split at way
    · cases way
    · split at way
      · exact List.mem_singleton.mp way ▸ Spot.next_ahead inside
      · cases way
  | place anchor =>
    rw [ways] at way
    split at way
    · obtain rfl := List.mem_singleton.mp way
      exact .refl inside
    · cases way
  | seq first second firstAhead secondAhead =>
    rw [ways] at way
    obtain ⟨m, reached, later⟩ := List.mem_flatMap.mp way
    have start := firstAhead inside reached
    exact start.trans (secondAhead start.inside later)
  | either first second firstAhead secondAhead =>
    rw [ways] at way
    rcases List.mem_append.mp way with way | way
    · exact firstAhead inside way
    · exact secondAhead inside way
  | group index body bodyAhead =>
    rw [ways] at way
    obtain ⟨m, reached, rfl⟩ := List.mem_map.mp way
    have ahead := bodyAhead inside reached
    exact ⟨ahead.inside.withCaptures _, ahead.onward⟩
  | same index casing =>
    rw [ways] at way
    split at way
    · cases way
    · dsimp only at way
      split at way
      · exact List.mem_singleton.mp way ▸ Spot.forward_ahead inside _
      · cases way
  | look back negated body _ =>
    rw [ways] at way
    split at way
    · split at way
      · cases way
      · exact List.mem_singleton.mp way ▸ ⟨inside.withCaptures _, Nat.le_refl _⟩
    · split at way
      · obtain rfl := List.mem_singleton.mp way
        exact .refl inside
      · cases way
  | atomic body bodyAhead =>
    rw [ways] at way
    exact bodyAhead inside (List.mem_of_mem_head? (Option.mem_toList.mp way))
  | ifGroup index yes no yesAhead noAhead =>
    rw [ways] at way
    split at way
    · exact yesAhead inside way
    · exact noAhead inside way
  | times least most effort body bodyAhead =>
    have reaches : Reaches (body.ways text) s t := by
      cases effort with
      | most =>
        rw [ways] at way
        exact reaches_of_mem_mostWays way
      | fewest =>
        rw [ways] at way
        exact reaches_of_mem_fewestWays way
      | all =>
        rw [ways] at way
        exact reaches_of_roundsAll (Option.mem_toList.mp way)
    exact Reaches.ahead bodyAhead inside reaches

end Reach

section Reading

variable {text : Text} {p q : Pattern} {s t : Spot}

/-- The empty pattern stays. The next lemmas say for one kind of pattern each where it
leads. -/
theorem mem_ways_empty : t ∈ empty.ways text s ↔ t = s := List.mem_singleton

/-- A class reads one of its characters. -/
theorem mem_ways_one {test : CharTest} :
    t ∈ (one test).ways text s ↔ ∃ c, test.holds c = true ∧ s.Reads [c] t := by
  simp only [Spot.reads_singleton_iff]
  obtain ⟨before, rest, offset, captures⟩ := s
  cases rest with
  | nil =>
    change t ∈ [] ↔ _
    simp
  | cons c rest =>
    change t ∈ (if test.holds c = true then [_] else []) ↔ _
    by_cases passes : test.holds c = true
    · simp only [passes, if_true, List.mem_singleton, List.cons.injEq]
      constructor
      · rintro rfl
        exact ⟨c, passes, rest, ⟨rfl, rfl⟩, rfl⟩
      · rintro ⟨d, -, other, -, rfl⟩
        rfl
    · simp only [passes, if_false, List.cons.injEq, Bool.false_eq_true]
      constructor
      · exact False.elim ∘ List.not_mem_nil
      · rintro ⟨d, holds, other, ⟨rfl, -⟩, -⟩
        exact absurd holds passes

/-- An anchor reads nothing and asks where it is. -/
theorem mem_ways_place {anchor : Anchor} :
    t ∈ (place anchor).ways text s ↔ anchor.holds s = true ∧ t = s := by
  change t ∈ (if anchor.holds s = true then [s] else []) ↔ _
  by_cases holds : anchor.holds s = true <;> simp [holds]

/-- One pattern and then another, over a spot between them. -/
theorem mem_ways_seq :
    t ∈ (seq p q).ways text s ↔ ∃ m, m ∈ p.ways text s ∧ t ∈ q.ways text m :=
  List.mem_flatMap

/-- Either of two patterns. Their order is lost here, which is why the first match is found
by other means. -/
theorem mem_ways_either :
    t ∈ (either p q).ways text s ↔ t ∈ p.ways text s ∨ t ∈ q.ways text s :=
  List.mem_append

/-- A group remembers where its body began and ended. -/
theorem mem_ways_group {index : Nat} :
    t ∈ (group index p).ways text s ↔ ∃ m, m ∈ p.ways text s ∧ t = m.capture index s.offset := by
  have mapped : t ∈ (group index p).ways text s ↔
      ∃ m, m ∈ p.ways text s ∧ m.capture index s.offset = t := List.mem_map
  rw [mapped]
  simp only [eq_comm]

/-- Looking ahead asks for any way of its body and stays where it is. -/
theorem mem_ways_lookAhead :
    t ∈ (look 0 false p).ways text s ↔
      ∃ found, (p.ways text s).head? = some found ∧ t = { s with captures := found.captures } := by
  have here : s.back 0 = some s := by simp [Spot.back]
  rw [ways, here, Option.bind_some]
  cases (p.ways text s).head? <;> simp

/-- A pattern that may be left out. -/
theorem mem_ways_optional :
    t ∈ (times 0 (some 1) .most p).ways text s ↔ t ∈ p.ways text s ∨ t = s := by
  have once (m : Spot) (fuel : Nat) (last : Option Nat) :
      mostWays (p.ways text) 0 (some 1) (fuel + 1) 1 last m = [m] := by
    simp [mostWays_succ, allows]
  rw [ways_times_most, mostWays_succ]
  simp [allows, once]

/-- A sequence is its first pattern and then the others, also if there are none. -/
theorem mem_ways_sequence_cons {list : List Pattern} :
    t ∈ (sequence (p :: list)).ways text s ↔
      ∃ m, m ∈ p.ways text s ∧ t ∈ (sequence list).ways text m := by
  cases list with
  | nil => simp [sequence, mem_ways_empty]
  | cons q list =>
    rw [sequence, mem_ways_seq]
    simp

/-- A sequence can be cut anywhere. -/
theorem mem_ways_sequence_append {front back : List Pattern} :
    t ∈ (sequence (front ++ back)).ways text s ↔
      ∃ m, m ∈ (sequence front).ways text s ∧ t ∈ (sequence back).ways text m := by
  induction front generalizing s with
  | nil => simp [sequence, mem_ways_empty]
  | cons p front inductionHypothesis =>
    simp only [List.cons_append, mem_ways_sequence_cons, inductionHypothesis]
    constructor
    · rintro ⟨m, first, n, second, third⟩
      exact ⟨n, ⟨m, first, second⟩, third⟩
    · rintro ⟨n, ⟨m, first, second⟩, third⟩
      exact ⟨m, first, n, second, third⟩

/-- A single character in its exact case. -/
theorem mem_ways_char {c : Char} :
    t ∈ (one (.char c .exact)).ways text s ↔ s.Reads [c] t := by
  simp [mem_ways_one, CharTest.holds]

/-- A literal reads itself and nothing else. -/
theorem mem_ways_literal {u : Text} : t ∈ (literal u).ways text s ↔ s.Reads u t := by
  induction u generalizing s with
  | nil =>
    rw [literal, List.map_nil, sequence, mem_ways_empty]
    exact ⟨fun same => same ▸ .refl _, Spot.Reads.eq_of_nil⟩
  | cons c rest inductionHypothesis =>
    rw [literal, List.map_cons, mem_ways_sequence_cons, ← List.singleton_append,
      Spot.reads_append_iff]
    exact exists_congr fun m => and_congr mem_ways_char inductionHypothesis

/-- Rounds of a class of characters read a stretch of them. A round reads one
character, so none starts where the last one did, and as many rounds as there are
characters left need no more fuel than that. -/
theorem mem_mostWays_one {test : CharTest} {least fuel count : Nat} {last : Option Nat}
    (enough : s.rest.length < fuel) (advanced : ∀ offset, last = some offset → offset < s.offset) :
    t ∈ mostWays ((one test).ways text) least none fuel count last s ↔
      ∃ u, s.Reads u t ∧ least ≤ count + u.length ∧ ∀ c ∈ u, test.holds c = true := by
  induction fuel generalizing count last s with
  | zero => exact absurd enough (Nat.not_lt_zero _)
  | succ fuel inductionHypothesis =>
    have further (behind : Option Nat)
        (passed : ∀ offset, behind = some offset → offset ≤ s.offset) :
        t ∈ ((one test).ways text s).flatMap
            (mostWays ((one test).ways text) least none fuel (count + 1) behind) ↔
          ∃ c u, s.Reads (c :: u) t ∧ least ≤ count + (c :: u).length ∧
            ∀ d ∈ c :: u, test.holds d = true := by
      have round {m : Spot} {c : Char} (reads : s.Reads [c] m) :
          t ∈ mostWays ((one test).ways text) least none fuel (count + 1) behind m ↔
            ∃ u, m.Reads u t ∧ least ≤ count + 1 + u.length ∧ ∀ d ∈ u, test.holds d = true := by
        apply inductionHypothesis
        · rw [reads.rest] at enough
          exact Nat.lt_of_succ_lt_succ enough
        · intro offset same
          rw [reads.offset]
          exact Nat.lt_succ_of_le (passed offset same)
      simp only [List.mem_flatMap, mem_ways_one, List.mem_cons, List.length_cons]
      constructor
      · rintro ⟨m, ⟨c, holds, reads⟩, later⟩
        obtain ⟨u, onward, long, all⟩ := (round reads).mp later
        refine ⟨c, u, reads.trans onward, by omega, ?_⟩
        rintro d (rfl | member)
        · exact holds
        · exact all d member
      · rintro ⟨c, u, reads, long, all⟩
        rw [← List.singleton_append] at reads
        obtain ⟨m, first, onward⟩ := Spot.reads_append_iff.mp reads
        exact ⟨m, ⟨c, all c (.inl rfl), first⟩, (round first).mpr
          ⟨u, onward, by omega, fun d member => all d (.inr member)⟩⟩
    rw [mostWays_succ]
    by_cases few : count < least
    · rw [if_pos few, further last fun offset same => Nat.le_of_lt (advanced offset same)]
      constructor
      · rintro ⟨c, u, read⟩
        exact ⟨c :: u, read⟩
      · rintro ⟨u, reads, long, all⟩
        cases u with
        | nil => exact absurd long (by simpa using few)
        | cons c u => exact ⟨c, u, reads, long, all⟩
    · have moved : (allows none count && last != some s.offset) = true := by
        simp only [allows, Bool.true_and, bne_iff_ne]
        exact fun same => Nat.lt_irrefl _ (advanced _ same)
      rw [if_neg few, if_pos moved, List.mem_append, List.mem_singleton,
        further (some s.offset) fun offset same => Nat.le_of_eq (Option.some.inj same).symm]
      constructor
      · rintro (⟨c, u, read⟩ | rfl)
        · exact ⟨c :: u, read⟩
        · exact ⟨[], .refl _, by simpa using few, by simp⟩
      · rintro ⟨u, reads, long, all⟩
        cases u with
        | nil => exact .inr reads.eq_of_nil
        | cons c u => exact .inl ⟨c, u, reads, long, all⟩

/-- A repeated class of characters reads any stretch of them that is long enough. -/
theorem mem_ways_times_one {test : CharTest} {least : Nat} :
    t ∈ (times least none .most (one test)).ways text s ↔
      ∃ u, s.Reads u t ∧ least ≤ u.length ∧ ∀ c ∈ u, test.holds c = true := by
  have enough : s.rest.length < least + s.rest.length + 3 := by omega
  have fresh : ∀ offset, none = some offset → offset < s.offset := by
    intro offset impossible
    cases impossible
  rw [ways_times_most, mem_mostWays_one enough fresh]
  simp only [Nat.zero_add]

end Reading

end Pattern

end Emend
