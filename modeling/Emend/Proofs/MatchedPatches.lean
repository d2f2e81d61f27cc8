import Emend.Proofs.Hits
import Emend.Proofs.Readings
import Emend.Proofs.Scans
import Emend.Proofs.Stitching
import Mathlib.Data.List.Perm.Subperm

/-!
# Patches of matches

A suggestor by pattern proposes a patch for each match, in the order of the
matches. Its stream hands out the patches up to the first match whose range or
new text is refused, and each of them is over the range that was picked in its
match.

Matches are apart and their ranges increase strictly. Patches over whole matches
inherit this, also where an empty match is followed by a longer one at the same
offset. The patch of an exported name lies strictly inside of its match, so it
inherits it too. Patches of this kind can be applied together in any selection
and in any order.
-/

namespace Emend

namespace Patch

/-- Patches that never get in each other's way: their ranges increase strictly, by start and
then by end, each ends before the next one starts, and any selection of them can be applied to
the text, in whatever order it is given. -/
structure Compatible (text : Text) (patches : List Patch) : Prop where
  increasing : patches.Pairwise fun p q => p.start < q.start ∨ p.start = q.start ∧ p.stop < q.stop
  disjoint : patches.Pairwise fun p q => p.stop ≤ q.start
  applies : ∀ chosen, chosen.Subperm patches → ∃ result, apply text chosen = .ok result

/-- Any selection of patches of a text that are apart can be applied. -/
theorem exists_apply_of_subperm {text : Text} {patches chosen : List Patch}
    (native : ∀ p ∈ patches, p.source.text = text)
    (disjoint : patches.Pairwise fun p q => p.stop ≤ q.start) (selected : chosen.Subperm patches) :
    ∃ result, apply text chosen = .ok result := by
  obtain ⟨list, same, sublist⟩ := selected
  apply (apply_ok_iff text chosen).mpr
  constructor
  · intro p member
    exact native p (sublist.subset (same.mem_iff.mpr member))
  · have apart : list.Pairwise Apart := (disjoint.sublist sublist).imp Or.inl
    exact (same.pairwise_iff Apart.symm).mp apart

/-- Patches that never get in each other's way are stitched in as they stand. -/
theorem Compatible.apply_eq {text : Text} {patches : List Patch}
    (compatible : Compatible text patches) (native : ∀ p ∈ patches, p.source.text = text) :
    apply text patches = .ok (stitch text patches) := by
  have sorted : patches.Pairwise fun p q => p.precedes q = true := by
    apply compatible.increasing.imp
    intro p q before
    rw [precedes_iff]
    omega
  have ordered : StableOrder patches patches := ⟨.refl _, sorted, fun _ _ => rfl⟩
  rw [apply_apart native (compatible.disjoint.imp Or.inl), ← ordered.eq_sort]

end Patch

/-- The stream of results hands out the patches before the first refusal. -/
theorem Proposals.harvest_ofList_prefix (results : List (Except Fault Patch)) (t : Tree) :
    ((ofList results).harvest t).patches.map .ok <+: results := by
  induction results with
  | nil => exact List.nil_prefix
  | cons result rest inductionHypothesis =>
    cases result with
    | error fault => exact List.nil_prefix
    | ok patch =>
      rw [ofList, harvest]
      exact List.prefix_cons_inj _ |>.mpr inductionHypothesis

theorem Proposals.harvest_ofList_fault (patches : List Patch) (t : Tree) :
    ((ofList (patches.map .ok)).harvest t).fault = none := by
  induction patches with
  | nil => rfl
  | cons patch rest inductionHypothesis =>
    rw [List.map_cons, ofList, harvest]
    exact inductionHypothesis

/-- The range and the new text of a patch. -/
def Patch.edit (p : Patch) : Nat × Nat × Text := (p.start, p.stop, p.replacement)

theorem Patch.edit_of_build {source : Source} {start stop : Nat} {t : Text} {p : Patch}
    (made : build source start (some (stop : Int)) t = .ok p) :
    p.source = source ∧ p.edit = (start, stop, t) := by
  rw [build] at made
  split at made
  · cases made
    exact ⟨rfl, rfl⟩
  · cases made

namespace Suggestor

variable {source : Source} {range : Match → Except Fault (Option (Nat × Nat))}
  {replacement : Match → Except Fault Text}

/-- A patch of a match is over the range that was picked in the match. -/
theorem of_matchPatch {m : Match} {p : Patch}
    (made : matchPatch source range replacement m = some (.ok p)) :
    range m = .ok (some (p.start, p.stop)) ∧ p.source = source := by
  rw [matchPatch] at made
  cases picked : range m with
  | error fault =>
    rw [picked] at made
    cases made
  | ok pick =>
    cases pick with
    | none =>
      rw [picked] at made
      cases made
    | some pick =>
      rw [picked] at made
      cases text : replacement m with
      | error fault =>
        rw [text] at made
        cases made
      | ok text' =>
        rw [text] at made
        obtain ⟨same, edit⟩ := Patch.edit_of_build (Option.some.inj made)
        have start : p.start = pick.1 := congrArg (fun data => data.1) edit
        have stop : p.stop = pick.2 := congrArg (fun data => data.2.1) edit
        exact ⟨by rw [start, stop], same⟩

/-- Matches whose ranges are there and whose new texts are given have a patch each. -/
theorem exists_matchPatches {pick : Match → Nat × Nat} {new : Match → Text} {found : List Match}
    (picked : ∀ m ∈ found, range m = .ok (some (pick m)) ∧ (pick m).1 ≤ (pick m).2 ∧
      (pick m).2 ≤ source.length)
    (given : ∀ m ∈ found, replacement m = .ok (new m)) :
    ∃ patches : List Patch, matchPatches source range replacement found = patches.map .ok ∧
      patches.map Patch.edit = found.map (fun m => ((pick m).1, (pick m).2, new m)) ∧
      ∀ p ∈ patches, p.source = source := by
  induction found with
  | nil => exact ⟨[], rfl, rfl, by simp⟩
  | cons m rest inductionHypothesis =>
    obtain ⟨patches, made, edits, native⟩ := inductionHypothesis
      (fun m member => picked m (List.mem_cons_of_mem _ member))
      (fun m member => given m (List.mem_cons_of_mem _ member))
    obtain ⟨chosen, ordered, inside⟩ := picked m List.mem_cons_self
    obtain ⟨p, built⟩ := Patch.exists_build ordered inside (new m)
    obtain ⟨same, edit⟩ := Patch.edit_of_build built
    have first : matchPatch source range replacement m = some (.ok p) := by
      rw [matchPatch, chosen]
      simp only [given m List.mem_cons_self]
      exact congrArg some built
    refine ⟨p :: patches, ?_, ?_, ?_⟩
    · rw [matchPatches, List.filterMap_cons_some first, List.map_cons, ← made, matchPatches]
    · rw [List.map_cons, List.map_cons, edits, edit]
    · intro q member
      rcases List.mem_cons.mp member with rfl | member
      · exact same
      · exact native q member

section Matching

variable {kind name description : String} {e : Expression}
  {replacement : Text → Match → Except Fault Text} {skips : Text → Bool}

/-- The patches of a suggestor by pattern are those of its matches. -/
theorem of_mem_proposed {p : Patch}
    (proposed : p ∈ (matching kind name description e range replacement skips).proposed source) :
    p.source = source := by
  have handed := Proposals.harvest_ofList_prefix
    (matchPatches source range (replacement source.text) (e.findAll source.text)) {}
  have listed := handed.subset (List.mem_map_of_mem proposed)
  obtain ⟨m, -, made⟩ := List.mem_filterMap.mp listed
  exact (of_matchPatch made).2

/-- A suggestor whose matches all have a range and a new text proposes a patch for each, and its
stream ends without a fault. -/
theorem proposed_of_picked (pick : Match → Nat × Nat) (new : Match → Text)
    (picked : ∀ m ∈ e.findAll source.text, range m = .ok (some (pick m)) ∧
      (pick m).1 ≤ (pick m).2 ∧ (pick m).2 ≤ m.stop)
    (given : ∀ m ∈ e.findAll source.text, replacement source.text m = .ok (new m)) :
    ((matching kind name description e range replacement skips).proposed source).map Patch.edit =
        (e.findAll source.text).map (fun m => ((pick m).1, (pick m).2, new m)) ∧
      (((matching kind name description e range replacement skips).proposals source).harvest
        {}).fault = none := by
  obtain ⟨patches, made, edits, -⟩ := exists_matchPatches
    (fun m member => by
      obtain ⟨chosen, ordered, inside⟩ := picked m member
      exact ⟨chosen, ordered, Nat.le_trans inside (Pattern.findAll_within member).inside⟩)
    given
  have stream : (matching kind name description e range replacement skips).proposals source =
      .ofList (patches.map .ok) := congrArg Proposals.ofList made
  rw [proposed, stream, harvest_ofList]
  exact ⟨edits, Proposals.harvest_ofList_fault patches {}⟩

/-- Patches of matches are compatible if the ranges that are picked in two matches are in order
whenever the matches are. -/
theorem matching_compatible
    (ordered : ∀ m ∈ e.findAll source.text, ∀ n ∈ e.findAll source.text, m.Before n →
      ∀ {a b c d : Nat}, range m = .ok (some (a, b)) → range n = .ok (some (c, d)) →
        b ≤ c ∧ (a < c ∨ a = c ∧ b < d)) :
    Patch.Compatible source.text
      ((matching kind name description e range replacement skips).proposed source) := by
  have listed : (matchPatches source range (replacement source.text)
      (e.findAll source.text)).Pairwise fun first second => ∀ p q, first = .ok p → second = .ok q →
        p.stop ≤ q.start ∧ (p.start < q.start ∨ p.start = q.start ∧ p.stop < q.stop) := by
    rw [matchPatches, List.pairwise_filterMap]
    apply (e.pattern.findAll_pairwise source.text).imp_of_mem
    rintro m n inM inN before _ madeP _ madeQ p q rfl rfl
    exact ordered m inM n inN before (of_matchPatch madeP).1 (of_matchPatch madeQ).1
  have handed := Proposals.harvest_ofList_prefix
    (matchPatches source range (replacement source.text) (e.findAll source.text)) {}
  have pairs : ((matching kind name description e range replacement skips).proposed
      source).Pairwise fun p q => p.stop ≤ q.start ∧
        (p.start < q.start ∨ p.start = q.start ∧ p.stop < q.stop) := by
    apply (List.pairwise_map.mp (listed.sublist handed.sublist)).imp
    intro p q relation
    exact relation p q rfl rfl
  have disjoint := pairs.imp fun both => both.1
  refine ⟨pairs.imp fun both => both.2, disjoint, ?_⟩
  intro chosen selected
  refine Patch.exists_apply_of_subperm ?_ disjoint selected
  intro p proposed
  rw [of_mem_proposed proposed]

end Matching

/-- The range of the whole match. -/
theorem spanOf_zero (e : Expression) (m : Match) :
    e.spanOf (.index 0) m = .ok (some (m.start, m.stop)) := by
  simp [Expression.spanOf, Expression.group?, Match.span]

/-- Patches over whole matches are compatible, whatever the pattern and the new texts are. -/
theorem matching_whole_compatible (kind name description : String) (e : Expression)
    (replacement : Text → Match → Except Fault Text) (skips : Text → Bool) :
    Patch.Compatible source.text
      ((matching kind name description e (e.spanOf (.index 0)) replacement skips).proposed
        source) := by
  apply matching_compatible
  intro m inM n inN before a b c d first second
  rw [spanOf_zero] at first second
  cases first
  cases second
  exact ⟨before.apart, before.increasing⟩

/-- A way to match a name after a head captures the range of the name. -/
theorem captured_after_head {text head name : Text} {offset index : Nat} {m n : Spot}
    (heads : (text.spot offset).Reads head m) (reads : m.Reads name n) (long : 0 < head.length) :
    (n.capture index m.offset).captures = [(index, m.offset, n.offset)] ∧
      offset < m.offset ∧ m.offset ≤ n.offset := by
  have start : m.offset = offset + head.length := heads.offset
  have stop := reads.offset
  refine ⟨?_, by omega, by omega⟩
  rw [Spot.capture, reads.captures, heads.captures]
  rfl

/-- The range of an exported name lies in its match and not at its start. -/
theorem exported_span {old : Text} {m : Match}
    (member : m ∈ (Expression.exported old).findAll source.text) :
    ∃ a b, (m.span 1).or (m.span 2) = some (a, b) ∧ m.start < a ∧ a ≤ b ∧ b ≤ m.stop := by
  obtain ⟨-, t, way, stop, captures⟩ :=
    (Pattern.findAll_scans (Expression.exported old).pattern source.text).mem_ways member
  rcases Pattern.mem_ways_either.mp way with braced | default
  · obtain ⟨-, head, s, n, formed, heads, reads, -, -, rfl⟩ :=
      Pattern.mem_ways_exportedName.mp braced
    obtain ⟨captured, before, ordered⟩ := captured_after_head heads reads formed.length_pos
    refine ⟨s.offset, n.offset, ?_, before, ordered, Nat.le_of_eq stop⟩
    rw [Match.span, Match.span, ← captures, captured]
    rfl
  · obtain ⟨-, head, s, n, formed, heads, reads, -, rfl⟩ :=
      Pattern.mem_ways_exportedDefault.mp default
    obtain ⟨captured, before, ordered⟩ := captured_after_head heads reads formed.length_pos
    refine ⟨s.offset, n.offset, ?_, before, ordered, Nat.le_of_eq stop⟩
    rw [Match.span, Match.span, ← captures, captured]
    rfl

/-- Patches over exported names are compatible. -/
theorem renameExport_compatible (old new : Text) :
    Patch.Compatible source.text ((renameExport old new).proposed source) := by
  apply matching_compatible
  intro m inM n inN before a b c d first second
  obtain ⟨_, _, spanM, startM, orderM, stopM⟩ := exported_span inM
  obtain ⟨_, _, spanN, startN, orderN, stopN⟩ := exported_span inN
  rw [spanM] at first
  rw [spanN] at second
  cases first
  cases second
  have apart := before.apart
  omega

/-- Patches over whole matches of any pattern, over exported names and over calls on the console
never get in each other's way, whatever the text is and whatever they put in place. -/
theorem matched_patches_compatible (source : Source) :
    (∀ (kind name description : String) (e : Expression)
        (replacement : Text → Match → Except Fault Text) (skips : Text → Bool),
      Patch.Compatible source.text
        ((matching kind name description e (e.spanOf (.index 0)) replacement skips).proposed
          source)) ∧
      (∀ old new : Text,
        Patch.Compatible source.text ((renameExport old new).proposed source)) ∧
      Patch.Compatible source.text (removeConsole.proposed source) :=
  ⟨fun _ _ _ _ _ _ => matching_whole_compatible _ _ _ _ _ _, renameExport_compatible,
    matching_whole_compatible _ _ _ _ _ _⟩

end Suggestor

end Emend
