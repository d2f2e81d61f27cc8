import Emend.Proofs.Exports
import Emend.Suggestor.Builtin

/-!
# Texts that are not worth looking at

A built-in suggestor first asks whether a certain part occurs in a text at all, and
skips the text if it does not. No patch is lost that way, since every patch comes of
such a part: a node of a syntax tree spells a stretch of the text, and a match reads
what its pattern spells out, whatever characters that has. Suggestors of types ask for
nothing and skip no text.
-/

namespace Emend

namespace Text

/-- A part that occurs in a text is an infix of it. -/
theorem hasPart_iff (t part : Text) : t.hasPart part = true ↔ part <:+: t := by
  induction t with
  | nil => rw [hasPart, List.isEmpty_iff, List.infix_nil]
  | cons c t inductionHypothesis =>
    rw [hasPart, Bool.or_eq_true, List.isPrefixOf_iff_prefix, inductionHypothesis,
      List.infix_cons_iff]

theorem slice_infix (t : Text) (start stop : Nat) : t.slice start stop <:+: t :=
  (List.take_prefix _ _).isInfix.trans (List.drop_suffix _ _).isInfix

end Text

namespace Suggestor

section Marking

variable {source : Source} {edits : Source → Grammar.Mark → List Edit} {p : Patch}

/-- A patch at the nodes of a module comes of an edit at one of its marks. -/
theorem exists_edit (proposed : p ∈ ((markProposals edits source).harvest {}).patches) :
    ∃ mark d, d ∈ edits source mark := by
  cases reads : Grammar.Module.read? source.text with
  | none =>
    rw [markProposals, reads] at proposed
    cases proposed
  | some module =>
    obtain ⟨mark, -, d, edited, -⟩ := harvest_markProposals reads proposed
    exact ⟨mark, d, edited⟩

/-- A symbol is renamed only in a text that spells it. -/
theorem renameSymbol_infix {old new : Text}
    (proposed : p ∈ (renameSymbol old new).proposed source) : old <:+: source.text := by
  obtain ⟨mark, d, edited⟩ := exists_edit proposed
  cases mark with
  | name e =>
    rw [renameEdits] at edited
    split at edited
    · rename_i spelled
      rw [← spelled]
      exact Text.slice_infix _ _ _
    · cases edited
  | _ => cases edited

/-- A call is turned into a log record only in a text that spells the function. -/
theorem printToLog_infix {level : Text} (proposed : p ∈ (printToLog level).proposed source) :
    printName <:+: source.text := by
  obtain ⟨mark, d, edited⟩ := exists_edit proposed
  cases mark with
  | call e function =>
    cases function with
    | none => cases edited
    | some e =>
      rw [logEdits] at edited
      split at edited
      · rename_i spelled
        rw [← spelled]
        exact Text.slice_infix _ _ _
      · cases edited
  | _ => cases edited

end Marking

section Matching

variable {source : Source} {p : Patch}

/-- A patch of a suggestor by pattern comes of a match. -/
theorem exists_match {kind name description : String} {e : Expression}
    {range : Match → Except Fault (Option (Nat × Nat))}
    {replacement : Text → Match → Except Fault Text} {skips : Text → Bool}
    (proposed : p ∈ (matching kind name description e range replacement skips).proposed source) :
    ∃ m, m ∈ e.findAll source.text := by
  have handed := Proposals.harvest_ofList_prefix
    (matchPatches source range (replacement source.text) (e.findAll source.text)) {}
  obtain ⟨m, found, -⟩ := List.mem_filterMap.mp (handed.subset (List.mem_map_of_mem proposed))
  exact ⟨m, found⟩

/-- An export is renamed only in a text that spells its name, whatever the name is. -/
theorem renameExport_infix {old new : Text}
    (proposed : p ∈ (renameExport old new).proposed source) : old <:+: source.text := by
  obtain ⟨m, found⟩ := exists_match proposed
  obtain ⟨front, head, rest, group, exports, -, -, -⟩ := exported_match found
  refine ⟨front ++ head, rest, ?_⟩
  rw [exports.whole, List.append_assoc, List.append_assoc]

/-- A line is removed only from a text that spells the start of a call. -/
theorem removeConsole_infix (proposed : p ∈ removeConsole.proposed source) :
    "console.".toList <:+: source.text := by
  obtain ⟨m, found⟩ := exists_match proposed
  obtain ⟨-, t, way, -, -⟩ :=
    (Pattern.findAll_scans Expression.consoleLine.pattern source.text).mem_ways found
  obtain ⟨-, call, ending, reads, -⟩ := Pattern.mem_ways_consoleLine.mp way
  have follows : source.text.drop m.start = (call.text ++ ending) ++ t.rest := reads.rest
  have spelled : "console.".toList <:+: source.text.drop m.start := by
    rw [follows]
    refine ⟨call.indent, call.name ++ ('(' :: call.opened) ++ ending ++ t.rest, ?_⟩
    simp [ConsoleCall.text, CallHead.line]
  exact spelled.trans (List.drop_suffix _ _).isInfix

end Matching

end Suggestor

namespace Builtin

open Suggestor

/-- The part that a text must have to be worth looking at, if any. -/
def sought (parameters : List (Text × Value)) : Builtin → Option Text
  | renameSymbol => (parameter parameters "old_name" []).toOption
  | printToLog => some printName
  | typeHints => none
  | renameExport => (parameter parameters "old_name" []).toOption
  | removeConsole => some "console.".toList

/-- A suggestor that is built from two names has got both of them. -/
theorem of_names_eq_ok {parameters : List (Text × Value)} {kind : Text → Text → Suggestor}
    {g : Suggestor}
    (built : (do
      let old ← parameter parameters "old_name" []
      let new ← parameter parameters "new_name" []
      .ok (kind old new)) = Except.ok g) :
    ∃ old new, (parameter parameters "old_name" []).toOption = some old ∧ g = kind old new := by
  obtain ⟨old, named, rest⟩ := bind_eq_ok built
  obtain ⟨new, -, made⟩ := bind_eq_ok rest
  exact ⟨old, new, by rw [named]; rfl, (Except.ok.inj made).symm⟩

/-- A suggestor skips a text without the part that it seeks, and a text that it proposes a patch for
has the part. -/
theorem skips_and_infix {b : Builtin} {parameters : List (Text × Value)} {g : Suggestor}
    (built : b.build parameters = .ok g) (source : Source) :
    g.skips source.text =
        .ok ((b.sought parameters).any fun part => !source.text.hasPart part) ∧
      ∀ part, b.sought parameters = some part → ∀ p ∈ g.proposed source,
        part <:+: source.text := by
  rw [build] at built
  split at built
  · cases built
  · cases b with
    | renameSymbol =>
      obtain ⟨old, new, named, rfl⟩ := of_names_eq_ok built
      rw [sought, named]
      refine ⟨rfl, ?_⟩
      rintro _ ⟨⟩ p proposed
      exact renameSymbol_infix proposed
    | printToLog =>
      obtain ⟨level, -, rfl⟩ := map_eq_ok built
      refine ⟨rfl, ?_⟩
      rintro _ ⟨⟩ p proposed
      exact printToLog_infix proposed
    | typeHints =>
      cases Except.ok.inj built
      refine ⟨rfl, ?_⟩
      rintro _ ⟨⟩
    | renameExport =>
      obtain ⟨old, new, named, rfl⟩ := of_names_eq_ok built
      rw [sought, named]
      refine ⟨rfl, ?_⟩
      rintro _ ⟨⟩ p proposed
      exact renameExport_infix proposed
    | removeConsole =>
      cases Except.ok.inj built
      refine ⟨rfl, ?_⟩
      rintro _ ⟨⟩ p proposed
      exact removeConsole_infix proposed

/-- No built-in suggestor loses a patch by skipping a text. Whatever its parameters are, it says for
every text whether it skips it; it does so exactly if the part that it seeks is not in the text, and
then it would propose nothing. -/
theorem skipping_loses_nothing (b : Builtin) (parameters : List (Text × Value)) (g : Suggestor)
    (built : b.build parameters = .ok g) (source : Source) :
    ∃ skipped, g.skips source.text = .ok skipped ∧
      (skipped = true ↔ ∃ part ∈ b.sought parameters, ¬ part <:+: source.text) ∧
      (skipped = true → g.proposed source = []) := by
  obtain ⟨skips, spelled⟩ := skips_and_infix built source
  have missing : (b.sought parameters).any (fun part => !source.text.hasPart part) = true ↔
      ∃ part ∈ b.sought parameters, ¬ part <:+: source.text := by
    simp only [Option.any_eq_true, Bool.not_eq_true', ← Bool.not_eq_true, Text.hasPart_iff]
    rfl
  refine ⟨_, skips, missing, ?_⟩
  intro skipped
  obtain ⟨part, seeks, absent⟩ := missing.mp skipped
  rw [List.eq_nil_iff_forall_not_mem]
  intro p proposed
  exact absent (spelled part seeks p proposed)

/-- A name with a dot is not taken for a pattern: a text with another character there is skipped,
and nothing is proposed for it. -/
theorem dotted_name_skipped :
    ∃ g, build renameExport [("old_name".toList, .text "a.b".toList),
        ("new_name".toList, .text "c".toList)] = .ok g ∧
      g.skips "export default axb".toList = .ok true ∧
      g.proposed ⟨"export default axb".toList, none⟩ = [] := by
  refine ⟨.renameExport "a.b".toList "c".toList, rfl, rfl, ?_⟩
  obtain ⟨skipped, skips, -, nothing⟩ := skipping_loses_nothing renameExport
    [("old_name".toList, .text "a.b".toList), ("new_name".toList, .text "c".toList)] _ rfl
    ⟨"export default axb".toList, none⟩
  exact nothing (Except.ok.inj skips).symm

end Builtin

end Emend
