import Emend.Proofs.MatchedPatches

/-!
# Where a text exports a name

The pattern for exported names is said here of the text alone: the text falls into
what stands before the export, the head of the export, the name, and what follows
the name. The export starts at an edge of a word and the name ends at one. In
braces the name must be followed by the brace that closes them, perhaps after an
alias; as the default it may be followed by anything.
-/

namespace Emend

/-- An edge of a word between two parts of a text. -/
def Text.EdgeBetween (before after : Text) : Prop :=
  before.getLast?.any isWord ≠ after.head?.any isWord

instance (before after : Text) : Decidable (before.EdgeBetween after) :=
  inferInstanceAs (Decidable (_ ≠ _))

/-- The forms of an export: the head before the name, what follows the name, and the group that
captures it. -/
inductive ExportForm : Text → Text → Nat → Prop
  | braced {head u rest : Text} (opened : BraceHead head) (closed : Closing u) :
      ExportForm head (u ++ rest) 1
  | default {head rest : Text} (opened : DefaultHead head) : ExportForm head rest 2

theorem ExportForm.length_pos {head rest : Text} {group : Nat} (form : ExportForm head rest group) :
    0 < head.length := by
  cases form with
  | braced opened closed => exact opened.length_pos
  | default opened => exact opened.length_pos

/-- A text exports a name after `front`: `head` leads to the name and `rest` follows it. -/
structure Exports (text name front head rest : Text) (group : Nat) : Prop where
  whole : text = front ++ (head ++ (name ++ rest))
  starts : front.EdgeBetween (head ++ (name ++ rest))
  ends : (front ++ (head ++ name)).EdgeBetween rest
  form : ExportForm head rest group

theorem Spot.atEdge_iff (s : Spot) : s.AtEdge ↔ Text.EdgeBetween s.before.reverse s.rest := by
  rw [AtEdge, Anchor.holds, bne_iff_ne, Text.EdgeBetween, List.getLast?_reverse]
  rfl

section Spots

variable {text : Text} {s : Spot} {k : Nat}

theorem Text.atEdge_spot_append (front rest : Text) :
    ((front ++ rest).spot front.length).AtEdge ↔ front.EdgeBetween rest := by
  rw [Spot.atEdge_iff, spot_append, List.reverse_reverse]

/-- Reading from a spot of a text leads to a spot of the text. -/
theorem Spot.Reads.eq_spot {u : Text} (reads : (text.spot k).Reads u s) (inside : k ≤ text.length) :
    s = text.spot (k + u.length) := by
  have place := (reads.inside (Text.spot_in inside)).eq_spot
  have offset : s.offset = k + u.length := reads.offset
  have captures : s.captures = [] := reads.captures
  rw [← offset, ← place, ← captures]

theorem Text.reads_append (front u rest : Text) :
    ((front ++ (u ++ rest)).spot front.length).Reads u
      ((front ++ (u ++ rest)).spot (front ++ u).length) := by
  have later := spot_append (front ++ u) rest
  rw [List.append_assoc] at later
  rw [spot_append, later]
  constructor <;> simp

end Spots

namespace Exports

variable {text name front head rest : Text} {group : Nat}

/-- The spot behind an exported name, with the range of the name as the group. -/
def spot (text name front head : Text) (group : Nat) : Spot :=
  (text.spot (front ++ (head ++ name)).length).capture group (front ++ head).length

theorem offset_spot : (spot text name front head group).offset = (front ++ (head ++ name)).length :=
  rfl

theorem captures_spot : (spot text name front head group).captures =
    [(group, (front ++ head).length, (front ++ (head ++ name)).length)] := rfl

/-- A text exports a name where a head and the name can be read. -/
theorem of_reads {k : Nat} {m n : Spot} (inside : k ≤ text.length)
    (starts : (text.spot k).AtEdge) (heads : (text.spot k).Reads head m) (reads : m.Reads name n)
    (ends : n.AtEdge) (form : ExportForm head n.rest group) :
    ∃ front, front.length = k ∧ Exports text name front head n.rest group ∧
      n.capture group m.offset = spot text name front head group := by
  have length : (text.take k).length = k := List.length_take_of_le inside
  have both := heads.trans reads
  have whole : text = text.take k ++ (head ++ (name ++ n.rest)) := by
    have follows : text.drop k = (head ++ name) ++ n.rest := both.rest
    rw [← List.append_assoc head, ← follows, List.take_append_drop]
  have named : n = text.spot (text.take k ++ (head ++ name)).length := by
    rw [List.length_append, length]
    exact both.eq_spot inside
  have offset : m.offset = (text.take k ++ head).length := by
    rw [List.length_append, length]
    exact heads.offset
  refine ⟨text.take k, length, ⟨whole, ?_, ?_, form⟩, ?_⟩
  · rw [← Text.atEdge_spot_append, ← whole, length]
    exact starts
  · rw [← Text.atEdge_spot_append, List.append_assoc, List.append_assoc, ← whole, ← named]
    exact ends
  · rw [spot, ← offset, ← named]

/-- Where a text exports a name, a head and the name can be read. -/
theorem exists_reads (exports : Exports text name front head rest group) :
    (text.spot front.length).AtEdge ∧ ∃ m n, (text.spot front.length).Reads head m ∧
      m.Reads name n ∧ n.AtEdge ∧ n.rest = rest ∧
      n.capture group m.offset = spot text name front head group := by
  obtain ⟨rfl, starts, ends, -⟩ := exports
  have split : front ++ (head ++ (name ++ rest)) = (front ++ (head ++ name)) ++ rest := by simp
  have reads := Text.reads_append (front ++ head) name rest
  rw [List.append_assoc, List.append_assoc] at reads
  refine ⟨(Text.atEdge_spot_append _ _).mpr starts, _, _, Text.reads_append front head _, reads,
    ?_, ?_, rfl⟩
  · rw [split, Text.atEdge_spot_append]
    exact ends
  · rw [split, Text.spot_append]

/-- The ways to match an exported name are the exports of the text. -/
theorem mem_ways_iff {k : Nat} {t : Spot} (inside : k ≤ text.length) :
    t ∈ (Expression.exported name).pattern.ways text (text.spot k) ↔
      ∃ front head rest group, front.length = k ∧ Exports text name front head rest group ∧
        t = spot text name front head group := by
  rw [Expression.exported, Pattern.mem_ways_either, Pattern.mem_ways_exportedName,
    Pattern.mem_ways_exportedDefault]
  constructor
  · rintro (⟨starts, head, m, n, opened, heads, reads, ends, ⟨u, rest, closed, follows⟩, rfl⟩ |
      ⟨starts, head, m, n, opened, heads, reads, ends, rfl⟩)
    · have form : ExportForm head n.rest 1 := by
        rw [follows]
        exact .braced opened closed
      obtain ⟨front, length, exports, same⟩ := of_reads inside starts heads reads ends form
      exact ⟨front, head, n.rest, 1, length, exports, same⟩
    · obtain ⟨front, length, exports, same⟩ := of_reads inside starts heads reads ends
        (.default opened)
      exact ⟨front, head, n.rest, 2, length, exports, same⟩
  · rintro ⟨front, head, rest, group, rfl, exports, rfl⟩
    obtain ⟨starts, m, n, heads, reads, ends, follows, same⟩ := exports.exists_reads
    have form := exports.form
    cases form with
    | braced opened closed =>
      exact .inl ⟨starts, head, m, n, opened, heads, reads, ends, ⟨_, _, closed, follows⟩,
        same.symm⟩
    | default opened => exact .inr ⟨starts, head, m, n, opened, heads, reads, ends, same.symm⟩

end Exports

namespace Suggestor

variable {source : Source} {old new head rest : Text} {group : Nat}

/-- The range of the exported name in a match. -/
def exportedRange (m : Match) : Nat × Nat := ((m.span 1).or (m.span 2)).getD (m.start, m.stop)

/-- The range in the match of an export at the start of a text. -/
theorem exportedRange_spot (exports : Exports source.text old [] head rest group) :
    exportedRange ⟨0, (Exports.spot source.text old [] head group).offset,
      (Exports.spot source.text old [] head group).captures⟩ =
        (head.length, head.length + old.length) := by
  rw [exportedRange, Exports.captures_spot, List.nil_append, List.nil_append, List.length_append]
  have form := exports.form
  cases form with
  | braced opened closed => rfl
  | default opened => rfl

/-- What a match of an exported name says of the text. -/
theorem exported_match {text old : Text} {m : Match}
    (member : m ∈ (Expression.exported old).findAll text) :
    ∃ front head rest group, Exports text old front head rest group ∧ m.start = front.length ∧
      m.stop = (front ++ (head ++ old)).length ∧
      exportedRange m = ((front ++ head).length, (front ++ (head ++ old)).length) := by
  obtain ⟨inside, t, way, stop, captures⟩ :=
    (Pattern.findAll_scans (Expression.exported old).pattern text).mem_ways member
  obtain ⟨front, head, rest, group, start, exports, rfl⟩ := (Exports.mem_ways_iff inside).mp way
  refine ⟨front, head, rest, group, exports, start.symm, stop.symm, ?_⟩
  rw [exportedRange, Match.span, Match.span, ← captures, Exports.captures_spot]
  have form := exports.form
  cases form with
  | braced opened closed => rfl
  | default opened => rfl

/-- A patch is proposed for each match, over the exported name. -/
theorem renameExport_edits (source : Source) (old new : Text) :
    ((renameExport old new).proposed source).map Patch.edit =
        ((Expression.exported old).findAll source.text).map
          (fun m => ((exportedRange m).1, (exportedRange m).2, new)) ∧
      (((renameExport old new).proposals source).harvest {}).fault = none := by
  have picked : ∀ m ∈ (Expression.exported old).findAll source.text,
      (Except.ok ((m.span 1).or (m.span 2)) : Except Fault _) = .ok (some (exportedRange m)) ∧
        (exportedRange m).1 ≤ (exportedRange m).2 ∧ (exportedRange m).2 ≤ m.stop := by
    intro m member
    obtain ⟨a, b, span, -, ordered, inside⟩ := exported_span member
    rw [exportedRange, span]
    exact ⟨rfl, ordered, inside⟩
  exact proposed_of_picked exportedRange (fun _ => new) picked (fun _ _ => rfl)

/-- Nothing is found in a text that does not export the name. -/
theorem findAll_exported_eq_nil {text : Text}
    (nowhere : ∀ front head rest group, ¬ Exports text old front head rest group) :
    (Expression.exported old).findAll text = [] := by
  apply (Pattern.findAll_scans (Expression.exported old).pattern text).eq_nil
  intro k _ inside
  rw [List.eq_nil_iff_forall_not_mem]
  intro t way
  obtain ⟨front, head, rest, group, -, exports, -⟩ := (Exports.mem_ways_iff inside).mp way
  exact nowhere front head rest group exports

/-- Nothing is proposed for a text that does not export the name. -/
theorem renameExport_nothing
    (nowhere : ∀ front head rest group, ¬ Exports source.text old front head rest group) :
    ((renameExport old new).proposed source).map Patch.edit = [] := by
  rw [(renameExport_edits source old new).1, findAll_exported_eq_nil nowhere, List.map_nil]

/-- One patch is proposed for a text that exports the name at its start and nowhere else. -/
theorem renameExport_once (exports : Exports source.text old [] head rest group)
    (only : ∀ front head' rest' group', Exports source.text old front head' rest' group' →
      front = [] ∧ head' = head ∧ group' = group) :
    ((renameExport old new).proposed source).map Patch.edit =
      [(head.length, head.length + old.length, new)] := by
  have scans := Pattern.findAll_scans (Expression.exported old).pattern source.text
  have way := (Exports.mem_ways_iff (k := 0) (Nat.zero_le _)).mpr
    ⟨[], head, rest, group, rfl, exports, rfl⟩
  have ways : ∀ t ∈ (Expression.exported old).pattern.ways source.text (source.text.spot 0),
      t = Exports.spot source.text old [] head group := by
    intro t other
    obtain ⟨front, head', rest', group', -, exports', rfl⟩ :=
      (Exports.mem_ways_iff (Nat.zero_le _)).mp other
    obtain ⟨rfl, rfl, rfl⟩ := only front head' rest' group' exports'
    rfl
  have moved : (Exports.spot source.text old [] head group).offset ≠ 0 := by
    have long := exports.form.length_pos
    rw [Exports.offset_spot, List.nil_append, List.length_append]
    omega
  obtain ⟨later, found, further⟩ := scans.eq_cons (Nat.zero_le _) way ways moved
  have nothing : later = [] := by
    apply further.eq_nil
    intro k after inside
    rw [List.eq_nil_iff_forall_not_mem]
    intro t other
    obtain ⟨front, head', rest', group', place, exports', -⟩ :=
      (Exports.mem_ways_iff inside).mp other
    obtain ⟨rfl, -, -⟩ := only front head' rest' group' exports'
    rw [← place, List.length_nil] at after
    exact moved (Nat.le_zero.mp after)
  rw [nothing] at found
  rw [(renameExport_edits source old new).1, Expression.findAll, found, List.map_singleton,
    exportedRange_spot exports]

/-- The edit of a text whose only export can be at its start and with one head. -/
theorem renameExport_single {follows : Text → Prop} {holds : Prop} [Decidable holds]
    (only : ∀ front head' rest group', Exports source.text old front head' rest group' ↔
      front = [] ∧ head' = head ∧ group' = group ∧ follows rest)
    (exports : (∃ rest, follows rest) ↔ holds) :
    ((renameExport old new).proposed source).map Patch.edit =
      if holds then [(head.length, head.length + old.length, new)] else [] := by
  by_cases present : holds
  · obtain ⟨rest, here⟩ := exports.mpr present
    rw [if_pos present]
    apply renameExport_once ((only [] head rest group).mpr ⟨rfl, rfl, rfl, here⟩)
    intro front head' rest' group' other
    obtain ⟨start, same, captured, -⟩ := (only front head' rest' group').mp other
    exact ⟨start, same, captured⟩
  · rw [if_neg present]
    apply renameExport_nothing
    intro front head' rest' group' other
    obtain ⟨-, -, -, here⟩ := (only front head' rest' group').mp other
    exact present (exports.mp ⟨rest', here⟩)

end Suggestor

end Emend
