import Emend.Proofs.GroundedStatements
import Emend.Proofs.Positions
import Emend.Proofs.Tokens
import Emend.Suggestor.Marking

/-!
# Suggestors by syntax hit the nodes they mean

A suggestor by syntax finds a node by the line and the column that the written form of
the module gives it, and puts its patch where the source has that line and column. The
patch is at the node exactly if both have the ends of the node in the same place.

They may not: a carriage return alone ends a line of the written form and none of the
source, and the written form may leave characters of the text out. Both are excluded in
a text whose carriage returns are all followed by newlines and whose module is written
as it stands. There every patch is at the node that it is meant for.
-/

namespace Emend

/-- Every carriage return is followed by a newline. -/
def Text.PairsReturns (t : Text) : Prop := ∀ o, t[o]? = some '\r' → t[o + 1]? = some '\n'

instance (t : Text) : Decidable t.PairsReturns :=
  decidable_of_iff (∀ o < t.length, t[o]? = some '\r' → t[o + 1]? = some '\n')
    ⟨fun within o here => within o (List.getElem?_eq_some_iff.mp here).1 here,
      fun paired o _ => paired o⟩

namespace Source

/-- The line and the column of an offset. -/
def place (s : Source) (o : Nat) : Grammar.Place := ⟨s.lineAt o, s.columnAt o⟩

variable {s : Source}

/-- Different offsets are in different places. -/
theorem place_injective {o o' : Nat} (inside : o ≤ s.length) (inside' : o' ≤ s.length)
    (same : s.place o = s.place o') : o = o' := by
  obtain ⟨line, column⟩ := Grammar.Place.mk.inj same
  have here := s.offsetOf_eq_ok_iff.mpr ⟨inside, rfl, rfl⟩
  have there := s.offsetOf_eq_ok_iff.mpr ⟨inside', rfl, rfl⟩
  rw [line, column] at here
  exact Except.ok.inj (here.symm.trans there)

/-- Unless a carriage return stands alone, the places of a source go on from character to
character as those of a written form do. -/
theorem place_succ (paired : s.text.PairsReturns) {o : Nat} {c : Char}
    (here : s.text[o]? = some c) : s.place (o + 1) = (s.place o).next c s.text[o + 1]? := by
  rw [Grammar.Place.next]
  split
  · rename_i breaks
    have newline : c = '\n' := by
      rcases Bool.or_eq_true _ _ ▸ breaks with newline | alone
      · exact of_decide_eq_true newline
      · obtain ⟨return_, other⟩ := Bool.and_eq_true _ _ ▸ alone
        obtain rfl : c = '\r' := of_decide_eq_true return_
        exact absurd (paired o here) (of_decide_eq_true other)
    obtain ⟨line, column⟩ := s.place_after_newline (newline ▸ here)
    rw [place, line, column, place]
  · rename_i continues
    have other : c ≠ '\n' := by
      rintro rfl
      exact continues rfl
    rw [place, s.lineAt_after_other here other, s.columnAt_after_other here other, place]

end Source

namespace Grammar

/-- A stretch of the text of a source. -/
def Extent.Inside (e : Extent) (source : Source) : Prop :=
  e.start ≤ e.stop ∧ e.stop ≤ source.length

section Places

variable {s : Source}

/-- The places of the first offsets of a source. -/
def FirstPlaces (s : Source) (found : Array Place) : Prop :=
  ∀ o < found.size, found[o]? = some (s.place o)

theorem FirstPlaces.push {found : Array Place} (known : FirstPlaces s found) :
    FirstPlaces s (found.push (s.place found.size)) := by
  intro o inside
  rw [Array.size_push] at inside
  rw [Array.getElem?_push]
  split
  · rename_i last
    rw [last]
  · exact known o (by omega)

/-- Without rewordings the places of a written form are those of the source. The places
in `found` are those of the part of the text that was passed. -/
theorem placesFrom_plain (paired : s.text.PairsReturns) (offset : Nat) (found : Array Place)
    {passed rest : Text} (whole : s.text = passed ++ rest) (size : found.size = passed.length)
    (known : FirstPlaces s found) {o : Nat} (inside : o ≤ s.length) :
    (placesFrom 0 offset (s.place found.size) [] rest found)[o]? = some (s.place o) := by
  induction rest generalizing offset found passed with
  | nil =>
    rw [placesFrom]
    refine known.push o ?_
    rw [Source.length, whole, List.append_nil, ← size] at inside
    rw [Array.size_push]
    omega
  | cons c rest inductionHypothesis =>
    have here : s.text[found.size]? = some c := by simp [whole, size]
    have following : rest.head? = s.text[found.size + 1]? := by
      rw [whole, List.getElem?_append_right (by omega), List.head?_eq_getElem?]
      simp [size]
    have further := inductionHypothesis (offset + 1) (found.push (s.place found.size))
      (show s.text = (passed ++ [c]) ++ rest by simp [whole]) (by simp [size]) known.push
    rw [Array.size_push] at further
    rw [placesFrom, following, ← Source.place_succ paired here]
    exact further

theorem places_plain (paired : s.text.PairsReturns) {o : Nat} (inside : o ≤ s.length) :
    (places s.text [])[o]? = some (s.place o) := by
  have start : s.place 0 = ⟨0, 0⟩ := by
    rw [Source.place, Source.columnAt, Source.lineAt_eq_count]
    rfl
  have found := placesFrom_plain paired 0 #[] (List.nil_append s.text).symm rfl
    (fun o inside => absurd inside (Nat.not_lt_zero o)) inside
  rw [Array.size_empty, start] at found
  rwa [places, List.mergeSort_nil]

end Places

namespace Module

variable {module : Module} {source : Source}

/-- The source has the ends of a stretch in the places where the module has those of
another. -/
def Leads (module : Module) (source : Source) (e found : Extent) : Prop :=
  module.place e.start = source.place found.start ∧
    module.place e.stop = source.place found.stop

/-- The module and the source have both ends of a stretch in the same place. -/
def Locates (module : Module) (source : Source) (e : Extent) : Prop := module.Leads source e e

/-- The written form of the module is a text as it stands. -/
def Verbatim (module : Module) (t : Text) : Prop := module.places = Grammar.places t []

instance (module : Module) (t : Text) : Decidable (module.Verbatim t) :=
  inferInstanceAs (Decidable (_ = _))

/-- What is written as it stands, with no carriage return alone, is in place everywhere. -/
theorem Verbatim.locates (verbatim : module.Verbatim source.text)
    (paired : source.text.PairsReturns) {e : Extent} (inside : e.Inside source) :
    module.Locates source e := by
  have everywhere : ∀ o ≤ source.length, module.place o = source.place o := by
    intro o inside
    rw [place, verbatim, Array.getD_eq_getD_getElem?, places_plain paired inside,
      Option.getD_some]
  exact ⟨everywhere _ (Nat.le_trans inside.1 inside.2), everywhere _ inside.2⟩

/-- The module leads to the stretch itself exactly if it locates it. -/
theorem Leads.eq_iff {e found : Extent} (leads : module.Leads source e found)
    (inside : e.Inside source) (foundInside : found.Inside source) :
    found = e ↔ module.Locates source e := by
  constructor
  · rintro rfl
    exact leads
  · rintro ⟨start, stop⟩
    have starts := Source.place_injective (Nat.le_trans foundInside.1 foundInside.2)
      (Nat.le_trans inside.1 inside.2) (leads.1.symm.trans start)
    have stops := Source.place_injective foundInside.2 inside.2 (leads.2.symm.trans stop)
    cases found
    cases e
    exact (Extent.mk.injEq ..).mpr ⟨starts, stops⟩

end Module

namespace Extent

variable {e : Extent} {module : Module} {source : Source}

/-- The offsets for a stretch are those that the source has in the places of its ends. -/
theorem span_eq_ok_iff {start stop : Nat} :
    e.span module source = .ok (start, stop) ↔
      start ≤ source.length ∧ stop ≤ source.length ∧ module.Leads source e ⟨start, stop⟩ := by
  have leads : ∀ (p : Place) (o : Nat), source.offsetOf p.line p.column = .ok o ↔
      o ≤ source.length ∧ p = source.place o := by
    intro p o
    rw [Source.offsetOf_eq_ok_iff, Int.ofNat_inj, Int.ofNat_inj, Source.place]
    cases p
    rw [Place.mk.injEq]
  have both : e.span module source = .ok (start, stop) ↔
      source.offsetOf (module.place e.start).line (module.place e.start).column = .ok start ∧
        source.offsetOf (module.place e.stop).line (module.place e.stop).column = .ok stop := by
    rw [span]
    cases source.offsetOf (module.place e.start).line (module.place e.start).column with
    | error fault => simp [bind, Except.bind]
    | ok opens =>
      cases source.offsetOf (module.place e.stop).line (module.place e.stop).column with
      | error fault => simp [bind, Except.bind]
      | ok closes => simp [bind, Except.bind]
  rw [both, leads, leads]
  constructor
  · rintro ⟨⟨startInside, opens⟩, stopInside, closes⟩
    exact ⟨startInside, stopInside, opens, closes⟩
  · rintro ⟨startInside, stopInside, opens, closes⟩
    exact ⟨⟨startInside, opens⟩, stopInside, closes⟩

end Extent

/-- A name in a module that is read from a text lies within the text. -/
theorem Mark.Grounded.inside {source : Source} {module : Module}
    (reads : Module.read? source.text = some module) {mark : Mark} (member : mark ∈ module.marks)
    {e : Extent} (named : ∀ tokens, mark.Grounded tokens → e.IsWord tokens) : e.Inside source := by
  obtain ⟨tokens, rewordings, read, grounded⟩ := Module.read?_grounded reads
  obtain ⟨k, among, -, rfl⟩ := named tokens (grounded mark member)
  obtain ⟨front, back, text, extent⟩ := tokens?_standIn read k among
  simp only [Extent.Inside, Source.length, text, extent, List.length_append]
  omega

end Grammar

open Grammar

/-- Where the patch of an edit at a node should be. -/
def EditPlace.of : EditPlace → Extent → Extent
  | .before, e => ⟨e.start, e.start⟩
  | .after, e => ⟨e.stop, e.stop⟩
  | .instead, e => e

theorem EditPlace.of_inside (place : EditPlace) {e : Extent} {source : Source}
    (inside : e.Inside source) : (place.of e).Inside source := by
  cases place with
  | before => exact ⟨Nat.le_refl _, Nat.le_trans inside.1 inside.2⟩
  | after => exact ⟨Nat.le_refl _, inside.2⟩
  | instead => exact inside

theorem Grammar.Module.Leads.of {module : Module} {source : Source} {e found : Extent}
    (leads : module.Leads source e found) (place : EditPlace) :
    module.Leads source (place.of e) (place.of found) := by
  cases place with
  | before => exact ⟨leads.1, leads.1⟩
  | after => exact ⟨leads.2, leads.2⟩
  | instead => exact leads

/-- The stretch of a patch. -/
def Patch.extent (p : Patch) : Extent := ⟨p.start, p.stop⟩

theorem Patch.build_eq_ok {source : Source} {start stop : Nat} {t : Text} {p : Patch}
    (made : build source start (some (stop : Int)) t = .ok p) :
    p.source = source ∧ p.extent = ⟨start, stop⟩ := by
  rw [build] at made
  split at made
  · cases made
    exact ⟨rfl, rfl⟩
  · cases made

theorem Patch.exists_build {source : Source} {start stop : Nat} (ordered : start ≤ stop)
    (inside : stop ≤ source.length) (t : Text) :
    ∃ p, build source start (some (stop : Int)) t = .ok p := by
  rw [build, dif_pos (by rw [Option.getD_some]; omega)]
  exact ⟨_, rfl⟩

namespace Edit

variable {d : Edit} {module : Module} {source : Source}

/-- The patch of an edit is where the source has the places of the node. -/
theorem patch_eq_ok {p : Patch} (made : d.patch module source = .ok p) :
    p.source = source ∧ ∃ found, p.extent = d.place.of found ∧
      module.Leads source d.node found := by
  rw [patch] at made
  cases spans : d.node.span module source with
  | error fault =>
    rw [spans] at made
    cases made
  | ok span =>
    rw [spans] at made
    simp only [bind, Except.bind] at made
    obtain ⟨-, -, leads⟩ := Extent.span_eq_ok_iff.mp spans
    cases place : d.place with
    | before | after | instead =>
      rw [place] at made
      obtain ⟨same, extent⟩ := Patch.build_eq_ok made
      exact ⟨same, ⟨span.1, span.2⟩, extent, leads⟩

/-- An edit at a node that the module locates has its patch. -/
theorem exists_patch (located : module.Locates source d.node) (inside : d.node.Inside source) :
    ∃ p, d.patch module source = .ok p := by
  have before := Nat.le_trans inside.1 inside.2
  have spans : d.node.span module source = .ok (d.node.start, d.node.stop) :=
    Extent.span_eq_ok_iff.mpr ⟨before, inside.2, located⟩
  rw [patch, spans]
  simp only [bind, Except.bind]
  cases d.place with
  | before => exact Patch.exists_build (Nat.le_refl _) before _
  | after => exact Patch.exists_build (Nat.le_refl _) inside.2 _
  | instead => exact Patch.exists_build inside.1 inside.2 _

end Edit

namespace Suggestor

/-- The patches that a suggestor proposes for a source. -/
def proposed (g : Suggestor) (source : Source) : List Patch :=
  ((g.proposals source).harvest {}).patches

/-- Patches are aimed at the nodes of a module that are meant, which lie within the text.
Each patch is for one of them: it is where the source has the places of the node, and so
at the node itself exactly if the module locates that. Where the module locates all of
them, each has its patch. -/
structure Aims (patches : List Patch) (module : Module) (source : Source) (place : EditPlace)
    (meant : Extent → Prop) : Prop where
  inside : ∀ e, meant e → e.Inside source
  each : ∀ p ∈ patches, p.source = source ∧ ∃ e, meant e ∧
    module.Leads source (place.of e) p.extent ∧
    (p.extent = place.of e ↔ module.Locates source (place.of e))
  all : module.fault = none → (∀ e, meant e → module.Locates source e) →
    ∀ e, meant e → ∃ p ∈ patches, p.extent = place.of e

section Marking

variable {source : Source} {module : Module} {edits : Source → Mark → List Edit}

theorem harvest_ofList (patches : List Patch) (t : Tree) :
    ((Proposals.ofList (patches.map .ok)).harvest t).patches = patches := by
  induction patches with
  | nil => rfl
  | cons patch rest inductionHypothesis =>
    rw [List.map_cons, Proposals.ofList, Proposals.harvest, inductionHypothesis]

theorem mem_of_mapM_eq_ok {α β : Type} {f : α → Except Fault β} {values : List α}
    {results : List β} (made : values.mapM f = .ok results) {y : β} :
    y ∈ results ↔ ∃ x ∈ values, f x = .ok y := by
  induction values generalizing results with
  | nil =>
    cases made
    simp
  | cons x rest inductionHypothesis =>
    rw [List.mapM_cons] at made
    cases first : f x with
    | error fault =>
      rw [first] at made
      cases made
    | ok result =>
      cases others : rest.mapM f with
      | error fault =>
        rw [first, others] at made
        cases made
      | ok results =>
        rw [first, others] at made
        cases made
        simp [inductionHypothesis others, first, eq_comm]

theorem exists_mapM_eq_ok {α β : Type} {f : α → Except Fault β} {values : List α}
    (each : ∀ x ∈ values, ∃ y, f x = .ok y) : ∃ results, values.mapM f = .ok results := by
  induction values with
  | nil => exact ⟨[], rfl⟩
  | cons x rest inductionHypothesis =>
    obtain ⟨first, made⟩ := each x List.mem_cons_self
    obtain ⟨others, more⟩ := inductionHypothesis fun x member =>
      each x (List.mem_cons_of_mem _ member)
    rw [List.mapM_cons, made, more]
    exact ⟨first :: others, rfl⟩

/-- The proposals at the marks of a module are the patches of its edits, or none. -/
theorem harvest_markProposals (reads : Module.read? source.text = some module) {p : Patch}
    (proposed : p ∈ ((markProposals edits source).harvest {}).patches) :
    ∃ mark ∈ module.marks, ∃ d ∈ edits source mark, d.patch module source = .ok p := by
  rw [markProposals, reads] at proposed
  simp only [Walk.through_patches] at proposed
  split at proposed
  · cases proposed
  · rename_i patches made
    rw [harvest_ofList] at proposed
    rw [markPatches] at made
    split at made
    · cases made
    · obtain ⟨d, among, patched⟩ := (mem_of_mapM_eq_ok made).mp proposed
      obtain ⟨mark, marked, edited⟩ := List.mem_flatMap.mp among
      exact ⟨mark, marked, d, edited, patched⟩

/-- If no node is at fault and every edit has a patch, all of them are proposed. -/
theorem mem_harvest_markProposals (reads : Module.read? source.text = some module)
    (sound : module.fault = none)
    (patched : ∀ mark ∈ module.marks, ∀ d ∈ edits source mark,
      ∃ p, d.patch module source = .ok p)
    {mark : Mark} (marked : mark ∈ module.marks) {d : Edit} (edited : d ∈ edits source mark)
    {p : Patch} (made : d.patch module source = .ok p) :
    p ∈ ((markProposals edits source).harvest {}).patches := by
  have each : ∀ d ∈ module.marks.flatMap (edits source),
      ∃ p, d.patch module source = .ok p := by
    intro d among
    obtain ⟨mark, marked, edited⟩ := List.mem_flatMap.mp among
    exact patched mark marked d edited
  obtain ⟨patches, all⟩ := exists_mapM_eq_ok each
  have whole : markPatches source edits module = .ok patches := by rw [markPatches, sound, all]
  rw [markProposals, reads]
  simp only [Walk.through_patches, whole]
  rw [harvest_ofList]
  exact (mem_of_mapM_eq_ok all).mpr ⟨d, List.mem_flatMap.mpr ⟨mark, marked, edited⟩, made⟩

/-- Patches of edits that are all in one place at the nodes that are meant are aimed at
these nodes. -/
theorem aims_of_edits {place : EditPlace} {meant : Extent → Prop}
    (reads : Module.read? source.text = some module)
    (inside : ∀ e, meant e → e.Inside source)
    (only : ∀ mark ∈ module.marks, ∀ d ∈ edits source mark, d.place = place ∧ meant d.node)
    (every : ∀ e, meant e → ∃ mark ∈ module.marks, ∃ d ∈ edits source mark,
      d.place = place ∧ d.node = e) :
    Aims ((markProposals edits source).harvest {}).patches module source place meant := by
  have hits : ∀ {d : Edit} {p : Patch}, meant d.node → d.patch module source = .ok p →
      p.source = source ∧ module.Leads source (d.place.of d.node) p.extent ∧
        (p.extent = d.place.of d.node ↔ module.Locates source (d.place.of d.node)) := by
    intro d p aimed made
    obtain ⟨same, found, extent, leads⟩ := Edit.patch_eq_ok made
    have there := extent ▸ leads.of d.place
    exact ⟨same, there, there.eq_iff (d.place.of_inside (inside _ aimed))
      ⟨p.ordered, same ▸ p.inside⟩⟩
  refine ⟨inside, ?_, ?_⟩
  · intro p proposed
    obtain ⟨mark, marked, d, edited, made⟩ := harvest_markProposals reads proposed
    obtain ⟨rfl, aimed⟩ := only mark marked d edited
    obtain ⟨same, leads⟩ := hits aimed made
    exact ⟨same, d.node, aimed, leads⟩
  · intro sound located e aimed
    obtain ⟨mark, marked, d, edited, rfl, rfl⟩ := every e aimed
    have patched : ∀ mark ∈ module.marks, ∀ d ∈ edits source mark,
        ∃ p, d.patch module source = .ok p := by
      intro mark marked d edited
      have aimed := (only mark marked d edited).2
      exact Edit.exists_patch (located _ aimed) (inside _ aimed)
    obtain ⟨p, made⟩ := patched mark marked d edited
    refine ⟨p, mem_harvest_markProposals reads sound patched marked edited made, ?_⟩
    exact (hits aimed made).2.2.mpr ((located _ aimed).of d.place)

namespace Aims

variable {patches : List Patch} {place : EditPlace} {meant : Extent → Prop}

/-- In a module that is written as it stands every patch is at a node that is meant. -/
theorem exact (aims : Aims patches module source place meant)
    (verbatim : module.Verbatim source.text) (paired : source.text.PairsReturns) {p : Patch}
    (proposed : p ∈ patches) : p.source = source ∧ ∃ e, meant e ∧ p.extent = place.of e := by
  obtain ⟨same, e, aimed, -, there⟩ := aims.each p proposed
  exact ⟨same, e, aimed,
    there.mpr ((verbatim.locates paired (aims.inside e aimed)).of place)⟩

/-- A patch in place of nodes that read alike replaces that text. -/
theorem replaced (aims : Aims patches module source .instead meant)
    (verbatim : module.Verbatim source.text) (paired : source.text.PairsReturns) {t : Text}
    (alike : ∀ e, meant e → e.text source = t) {p : Patch} (proposed : p ∈ patches) :
    p.replaced = t := by
  obtain ⟨same, e, aimed, extent⟩ := aims.exact verbatim paired proposed
  obtain rfl : p.extent = e := extent
  rw [Patch.replaced, same]
  exact alike _ aimed

end Aims

end Marking

section Suggestors

variable (module : Module) (source : Source)

/-- A node that is a given name. -/
def Named (old : Text) (e : Extent) : Prop := .name e ∈ module.marks ∧ e.text source = old

/-- The name of the print function where it is called. -/
def Printing (e : Extent) : Prop :=
  (∃ call, .call call (some e) ∈ module.marks) ∧ e.text source = printName

/-- The name of a parameter that has no type and may have one, if the name suggests one. -/
def Hinted (e : Extent) : Prop :=
  .parameter e false false ∈ module.marks ∧ (hint? (e.text source)).isSome

variable {module source}

theorem renameSymbol_aims (reads : Module.read? source.text = some module) (old new : Text) :
    Aims ((renameSymbol old new).proposed source) module source .instead
      (Named module source old) := by
  refine aims_of_edits reads ?_ ?_ ?_
  · rintro e ⟨member, -⟩
    exact Mark.Grounded.inside reads member fun _ grounded => grounded
  · intro mark marked d edited
    cases mark with
    | name e =>
      rw [renameEdits] at edited
      split at edited
      · rename_i same
        obtain rfl := List.mem_singleton.mp edited
        exact ⟨rfl, marked, same⟩
      · cases edited
    | _ => cases edited
  · rintro e ⟨member, same⟩
    refine ⟨_, member, ⟨.instead, e, new⟩, ?_, rfl, rfl⟩
    rw [renameEdits, if_pos same]
    exact List.mem_singleton_self _

theorem printToLog_aims (reads : Module.read? source.text = some module) (level : Text) :
    Aims ((printToLog level).proposed source) module source .instead
      (Printing module source) := by
  refine aims_of_edits reads ?_ ?_ ?_
  · rintro e ⟨⟨call, member⟩, -⟩
    exact Mark.Grounded.inside reads member fun _ grounded => grounded e rfl
  · intro mark marked d edited
    cases mark with
    | call call callee =>
      cases callee with
      | none => cases edited
      | some e =>
        rw [logEdits] at edited
        split at edited
        · rename_i same
          obtain rfl := List.mem_singleton.mp edited
          exact ⟨rfl, ⟨call, marked⟩, same⟩
        · cases edited
    | _ => cases edited
  · rintro e ⟨⟨call, member⟩, same⟩
    refine ⟨_, member, ⟨.instead, e, "logging.".toList ++ Text.lowerText level⟩, ?_, rfl, rfl⟩
    rw [logEdits, if_pos same]
    exact List.mem_singleton_self _

theorem mem_hintEdits {mark : Mark} {d : Edit} (edited : d ∈ hintEdits source mark) :
    ∃ e, mark = .parameter e false false ∧ ∃ type, hint? (e.text source) = some type ∧
      d = ⟨.after, e, ": ".toList ++ type.toList⟩ := by
  rw [hintEdits.eq_def] at edited
  split at edited
  · rename_i e
    split at edited
    · rename_i type hinted
      exact ⟨e, rfl, type, hinted, List.mem_singleton.mp edited⟩
    · cases edited
  · cases edited

theorem typeHints_aims (reads : Module.read? source.text = some module) (simple : Bool) :
    Aims ((typeHints simple).proposed source) module source .after
      (fun e => simple = true ∧ Hinted module source e) := by
  refine aims_of_edits reads ?_ ?_ ?_
  · rintro e ⟨-, member, -⟩
    exact Mark.Grounded.inside reads member fun _ grounded => grounded
  · intro mark marked d edited
    cases simple with
    | false => cases edited
    | true =>
      rw [if_pos rfl] at edited
      obtain ⟨e, rfl, type, hinted, rfl⟩ := mem_hintEdits edited
      exact ⟨rfl, rfl, marked, by rw [hinted, Option.isSome_some]⟩
  · rintro e ⟨rfl, member, suggests⟩
    obtain ⟨type, hinted⟩ := Option.isSome_iff_exists.mp suggests
    refine ⟨_, member, ⟨.after, e, ": ".toList ++ type.toList⟩, ?_, rfl, rfl⟩
    rw [if_pos rfl, hintEdits, hinted]
    exact List.mem_singleton_self _

/-- Wherever the types go, they are inserted. -/
theorem typeHints_inserts (reads : Module.read? source.text = some module) (simple : Bool)
    {p : Patch} (proposed : p ∈ (typeHints simple).proposed source) : p.start = p.stop := by
  obtain ⟨mark, -, d, edited, made⟩ := harvest_markProposals reads proposed
  cases simple with
  | false => cases edited
  | true =>
    obtain ⟨e, -, type, -, rfl⟩ := mem_hintEdits edited
    obtain ⟨-, found, extent, -⟩ := Edit.patch_eq_ok made
    obtain ⟨start, stop⟩ := Extent.mk.inj extent
    exact start.trans stop.symm

/-- A stretch is what comes last before its end. -/
theorem text_suffix_take (e : Extent) : e.text source <:+ source.text.take e.stop := by
  rw [Extent.text, Text.slice, ← List.drop_take]
  exact List.drop_suffix _ _

/-- Every patch of a suggestor by syntax is for a node that the suggestor means, and it is at
that node exactly if the module and the source have the ends of the node in the same place.
In a text without a carriage return alone, and whose module is written as it stands, every
renaming replaces the old name, every conversion replaces the name of the print function,
and every type is inserted right after the name of its parameter. -/
theorem marked_nodes_hit (reads : Module.read? source.text = some module)
    (old new level : Text) (simple : Bool) :
    Aims ((renameSymbol old new).proposed source) module source .instead
        (Named module source old) ∧
      Aims ((printToLog level).proposed source) module source .instead
        (Printing module source) ∧
      Aims ((typeHints simple).proposed source) module source .after
        (fun e => simple = true ∧ Hinted module source e) ∧
      (∀ p ∈ (typeHints simple).proposed source, p.start = p.stop) ∧
      (module.Verbatim source.text → source.text.PairsReturns →
        (∀ p ∈ (renameSymbol old new).proposed source, p.replaced = old) ∧
        (∀ p ∈ (printToLog level).proposed source, p.replaced = printName) ∧
        ∀ p ∈ (typeHints simple).proposed source, ∃ e, Hinted module source e ∧
          e.stop = p.start ∧ e.text source <:+ source.text.take p.start) := by
  refine ⟨renameSymbol_aims reads old new, printToLog_aims reads level,
    typeHints_aims reads simple, fun p => typeHints_inserts reads simple, ?_⟩
  intro verbatim paired
  refine ⟨fun p => ?_, fun p => ?_, fun p proposed => ?_⟩
  · exact (renameSymbol_aims reads old new).replaced verbatim paired fun e named => named.2
  · exact (printToLog_aims reads level).replaced verbatim paired fun e printing => printing.2
  · obtain ⟨-, e, ⟨-, hinted⟩, extent⟩ :=
      (typeHints_aims reads simple).exact verbatim paired proposed
    have after : e.stop = p.start := (Extent.mk.inj extent).1.symm
    exact ⟨e, hinted, after, after ▸ text_suffix_take e⟩

/-- A function of one parameter that prints it, with both ends of lines. -/
def greeting : Source := ⟨"def greet(name):\r\n    print(name)\n".toList, none⟩

theorem greeting_reads : (Module.read? greeting.text).isSome := by decide +kernel

/-- In the greeting all nodes are hit: the parameter where it is named and where it is
printed, the call that prints it, and the place for its type. -/
theorem greeting_marked_nodes_hit :
    ∃ module, Module.read? greeting.text = some module ∧
      module.Verbatim greeting.text ∧ greeting.text.PairsReturns ∧
      ((renameSymbol "name".toList "who".toList).proposed greeting).length = 2 ∧
      (∀ p ∈ (renameSymbol "name".toList "who".toList).proposed greeting,
        p.replaced = "name".toList) ∧
      ((printToLog "INFO".toList).proposed greeting).length = 1 ∧
      (∀ p ∈ (printToLog "INFO".toList).proposed greeting, p.replaced = printName) ∧
      ((typeHints true).proposed greeting).length = 1 ∧
      ∀ p ∈ (typeHints true).proposed greeting, p.start = p.stop ∧
        ∃ e, Hinted module greeting e ∧ e.stop = p.start := by
  have reads := (Option.some_get greeting_reads).symm
  have verbatim : ((Module.read? greeting.text).get greeting_reads).Verbatim greeting.text := by
    decide +kernel
  have paired : greeting.text.PairsReturns := by decide +kernel
  obtain ⟨-, -, -, inserts, hits⟩ := marked_nodes_hit reads
    "name".toList "who".toList "INFO".toList true
  obtain ⟨renames, prints, hints⟩ := hits verbatim paired
  refine ⟨_, reads, verbatim, paired, by decide +kernel, renames,
    by decide +kernel, prints, by decide +kernel, fun p proposed => ⟨inserts p proposed, ?_⟩⟩
  obtain ⟨e, hinted, after, -⟩ := hints p proposed
  exact ⟨e, hinted, after⟩

/-- A byte order mark is not written, so the name after it is missed: the patch replaces the
mark. -/
theorem byte_order_mark_misses :
    (Module.read? "\ufeffx = 1\n".toList).isSome ∧
      ∃ p ∈ (renameSymbol ['x'] ['y']).proposed ⟨"\ufeffx = 1\n".toList, none⟩,
        p.replaced ≠ ['x'] := by
  decide +kernel

end Suggestors

end Suggestor

end Emend
