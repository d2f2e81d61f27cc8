import Emend.Proofs.History
import Emend.Proofs.Persistence
import Emend.Proofs.Stitching
import Emend.Proofs.Utf8

/-!
# Patches in bytes

Patches count characters, and files hold bytes. The encoding of a text up to some
character has a number of bytes, and that is where the character starts in the
bytes of the text. So the range of a patch is a range of bytes, which encodes what
the patch replaces, and splicing the encoding of its replacement into the bytes is
encoding the text into which the replacement is spliced.

A file is read if its bytes are valid, whatever characters and line ends they
encode, and patches that are apart are written back as bytes in which nothing but
their ranges has changed.
-/

namespace Emend

namespace Text

/-- Where a character starts in the bytes of a text. -/
def byteOffset (text : Text) (count : Nat) : Nat := (encode (text.take count)).length

/-- The bytes of texts with a common start are cut where that ends. -/
theorem encode_split {edited text : Text} {count : Nat}
    (same : edited.take count = text.take count) :
    (encode edited).take (text.byteOffset count) = encode (edited.take count) ∧
      (encode edited).drop (text.byteOffset count) = encode (edited.drop count) := by
  have whole : encode edited = encode (edited.take count) ++ encode (edited.drop count) := by
    rw [← encode_append, List.take_append_drop]
  rw [byteOffset, ← same, whole]
  exact ⟨List.take_left, List.drop_left⟩

end Text

namespace Patch

/-- Bytes with the range of a patch for a text replaced by the encoding of its
replacement. -/
def spliceBytes (text : Text) (p : Patch) (bytes : List UInt8) : List UInt8 :=
  bytes.take (text.byteOffset p.start) ++ Text.encode p.replacement ++
    bytes.drop (text.byteOffset p.stop)

/-- The range of a patch in the bytes of its text encodes what it replaces. -/
theorem encode_replaced (p : Patch) :
    ((Text.encode p.source.text).drop (p.source.text.byteOffset p.start)).take
      (p.source.text.byteOffset p.stop - p.source.text.byteOffset p.start) =
        Text.encode p.replaced := by
  have inOrder := p.ordered
  have upTo : p.source.text.take p.stop = p.source.text.take p.start ++ p.replaced := by
    rw [replaced, Text.slice, ← List.take_add, Nat.add_sub_cancel' inOrder]
  have after : p.source.text.drop p.start = p.replaced ++ p.source.text.drop p.stop := by
    have split := List.take_append_drop (p.stop - p.start) (p.source.text.drop p.start)
    rw [List.drop_drop, Nat.add_sub_cancel' inOrder] at split
    exact split.symm
  have width : p.source.text.byteOffset p.stop =
      p.source.text.byteOffset p.start + (Text.encode p.replaced).length := by
    rw [Text.byteOffset, upTo, Text.encode_append, List.length_append, Text.byteOffset]
  rw [(Text.encode_split rfl).2, after, Text.encode_append, width, Nat.add_sub_cancel_left]
  exact List.take_left

/-- Splicing bytes is encoding the text into which the replacement is spliced, even
if it has been changed behind the range before. -/
theorem encode_splice {edited text : Text} {p : Patch}
    (same : edited.take p.stop = text.take p.stop) :
    Text.encode (splice edited p) = spliceBytes text p (Text.encode edited) := by
  have start : edited.take p.start = text.take p.start := by
    have shorter := congrArg (List.take p.start) same
    rwa [List.take_take, List.take_take, Nat.min_eq_left p.ordered] at shorter
  rw [splice, spliceBytes, Text.encode_append, Text.encode_append, (Text.encode_split start).1,
    (Text.encode_split same).2]

/-- Splicing ordered patches from the last one to the first. -/
theorem encode_foldr_splice {text : Text} {ordered : List Patch}
    (native : ∀ p ∈ ordered, p.source.text = text)
    (chained : ordered.Pairwise fun p q => p.stop ≤ q.start) :
    Text.encode (ordered.foldr (fun p edited => splice edited p) text) =
      ordered.foldr (spliceBytes text) (Text.encode text) := by
  induction ordered with
  | nil => rfl
  | cons p rest inductionHypothesis =>
    obtain ⟨later, restChained⟩ := List.pairwise_cons.mp chained
    have restNative : ∀ q ∈ rest, q.source.text = text := fun q member =>
      native q (List.mem_cons_of_mem _ member)
    have reached : p.stop ≤ text.length := by
      have inside := p.inside
      rwa [Source.length, native p List.mem_cons_self] at inside
    -- The later patches leave the text before the end of this one as it is.
    have same : (rest.foldr (fun p edited => splice edited p) text).take p.stop =
        text.take p.stop := by
      rw [foldr_splice_eq_stitchFrom restNative restChained later]
      exact List.take_left' (List.length_take_of_le reached)
    rw [List.foldr_cons, encode_splice same, inductionHypothesis restNative restChained,
      List.foldr_cons]

/-- The bytes of a text with patches applied that are apart. -/
theorem encode_apply {text : Text} {patches ordered : List Patch}
    (native : ∀ p ∈ patches, p.source.text = text) (apart : patches.Pairwise Apart)
    (order : StableOrder patches ordered) :
    Text.encode (stitch text (sort patches)) =
      ordered.foldr (spliceBytes text) (Text.encode text) := by
  have chained : ordered.Pairwise fun p q => p.stop ≤ q.start := by
    rw [← firstOverlap_eq_none_iff, order.eq_sort]
    exact (firstOverlap_sort_eq_none_iff patches).mpr apart
  have allNative : ∀ p ∈ ordered, p.source.text = text := fun p member =>
    native p (order.perm.mem_iff.mp member)
  rw [← encode_foldr_splice allNative chained,
    foldr_splice_eq_stitchFrom allNative chained (fun p _ => Nat.zero_le p.start), order.eq_sort]
  simp [stitch]

end Patch

/-- Saving patches hands these bytes to the tree. If they are taken, they are what is
read from then on; if not, nothing has changed. -/
structure Session.Saves (s : Session) (source : Source) (path : Text) (accepted : List Patch)
    (bytes : List UInt8) : Prop where
  written : ∀ t, s.tree.replace path bytes = .ok t →
    (s.save source path accepted).2 = none ∧ (s.save source path accepted).1.tree = t ∧
      t.read path = .ok bytes
  refused : ∀ fault, s.tree.replace path bytes = .error fault →
    (s.save source path accepted).2 = some (.unwritable path (.file fault)) ∧
      (s.save source path accepted).1.tree = s.tree

namespace Review

/-- Patches that are applied are saved as the bytes of the text that results. -/
theorem saves_of_apply {s : Session} {source : Source} {path text : Text} {accepted : List Patch}
    {old : List UInt8} (read : s.tree.read path = .ok old) (some : accepted ≠ [])
    (applied : Patch.apply source.text accepted = .ok text) :
    s.Saves source path accepted (Text.encode text) := by
  cases accepted with
  | nil => exact absurd rfl some
  | cons p rest =>
    constructor
    · intro t replaced
      simp [Session.save, applied, Session.record, replaced, Tree.read_of_replace read replaced]
    · intro fault refused
      simp [Session.save, applied, Session.record, refused]

theorem settle_ne_unreadable (source : Source) (path : Text) (accepted : List Patch)
    (planned : VisitEnd) (s : Session) (file : Text) (fault : Fault)
    (other : planned ≠ .failed (.unreadable file fault)) :
    (settle source path accepted planned s).2 ≠ .failed (.unreadable file fault) := by
  simp only [settle, Session.commit, Session.save]
  cases accepted with
  | nil => exact other
  | cons p rest =>
    cases Patch.apply source.text (p :: rest) with
    | error fault => cases fault <;> simp
    | ok updated =>
      simp only [Session.note, Session.record]
      cases s.tree.replace path (Text.encode updated) with
      | error fault => simp
      | ok tree => exact other

/-- Once a file has been read, a visit does not fail for being unable to read it. -/
theorem offer_ne_unreadable (r : Review) (label : String) (source : Source) (path : Text)
    (stream : Proposals) (accepted : List Patch) (s : Session) (file : Text) (fault : Fault) :
    (r.offer label source path stream accepted s).2 ≠ .failed (.unreadable file fault) := by
  induction stream generalizing accepted s with
  | done =>
    have settled := settle_ne_unreadable source path accepted .completed s file fault (by simp)
    rw [offer]
    split
    · simp
    rcases ended : settle source path accepted .completed s with ⟨m, _ | _ | _⟩ <;>
      rw [ended] at settled <;> exact settled
  | fault cause => simp [offer]
  | stray type rest inductionHypothesis => simp [offer]
  | note record rest inductionHypothesis => exact inductionHypothesis accepted _
  | act action rest inductionHypothesis =>
    rw [offer]
    split
    · simp
    · exact inductionHypothesis accepted _
  | propose p rest inductionHypothesis =>
    rw [offer]
    split
    · simp
    dsimp only
    split
    · exact inductionHypothesis accepted _
    split
    · simp
    · exact settle_ne_unreadable _ _ _ _ _ _ _ (by simp)
    · exact inductionHypothesis accepted _
    · exact inductionHypothesis _ _
    · exact inductionHypothesis _ _

/-- A text is read exactly from valid bytes, and it is the one that they encode. -/
theorem readText_eq_ok_iff {t : Tree} {path : Text} {bytes : List UInt8}
    (read : t.read path = .ok bytes) (text : Text) :
    readText t path = .ok text ↔ Text.encode text = bytes := by
  rw [readText, read, ← Text.decode_eq_ok_iff]
  dsimp only
  cases Text.decode bytes <;> simp

/-- A visit to a file that can be opened fails for being unable to read it exactly if
its bytes are not valid. -/
theorem unreadable_iff (r : Review) (g : Suggestor) {path : Text} {s : Session}
    {bytes : List UInt8} (read : s.tree.read path = .ok bytes) :
    (∃ fault, (r.visit g path s).2 = .failed (.unreadable path fault)) ↔
      ¬ bytes.toByteArray.IsValidUTF8 := by
  have noted : (s.note ("file: ".toList ++ path)).tree = s.tree := rfl
  rw [Text.isValidUTF8_iff]
  simp only [visit, noted]
  cases contents : readText s.tree path with
  | error fault =>
    refine iff_of_true ⟨fault, rfl⟩ ?_
    rintro ⟨text, decoded⟩
    rw [Text.decode_eq_ok_iff, ← readText_eq_ok_iff read] at decoded
    cases contents.symm.trans decoded
  | ok text =>
    have decoded := (readText_eq_ok_iff read text).mp contents
    refine iff_of_false ?_ (fun invalid => invalid ⟨text, (Text.decode_eq_ok_iff _ _).mpr decoded⟩)
    rintro ⟨fault, failed⟩
    dsimp only at failed
    split at failed
    · cases failed
    · cases failed
    · exact r.offer_ne_unreadable _ _ _ _ _ _ _ _ failed

/-- A file whose bytes are not valid UTF-8 is not read, and any other is. Patches that
are for its text and pairwise apart are saved as its bytes with exactly those ranges
replaced that encode what the patches replace, each by the encoding of its
replacement, from the last range to the first. -/
theorem saved_bytes_spliced (s : Session) (path : Text) (bytes : List UInt8)
    (read : s.tree.read path = .ok bytes) :
    (∀ (r : Review) (g : Suggestor),
      (∃ fault, (r.visit g path s).2 = .failed (.unreadable path fault)) ↔
        ¬ bytes.toByteArray.IsValidUTF8) ∧
    (bytes.toByteArray.IsValidUTF8 → ∃ text, readText s.tree path = .ok text ∧
      ∀ patches : List Patch, patches ≠ [] → (∀ p ∈ patches, p.source.text = text) →
        patches.Pairwise Patch.Apart →
          (∀ p ∈ patches, (bytes.drop (text.byteOffset p.start)).take
            (text.byteOffset p.stop - text.byteOffset p.start) = Text.encode p.replaced) ∧
          Patch.StableOrder patches (Patch.sort patches) ∧
          ∀ ordered, Patch.StableOrder patches ordered →
            ∀ (m : Session) (url : Option String) (old : List UInt8), m.tree.read path = .ok old →
              m.Saves ⟨text, url⟩ path patches (ordered.foldr (Patch.spliceBytes text) bytes)) := by
  refine ⟨fun r g => unreadable_iff r g read, ?_⟩
  intro valid
  obtain ⟨text, decoded⟩ := (Text.isValidUTF8_iff bytes).mp valid
  have encoded : Text.encode text = bytes := (Text.decode_eq_ok_iff bytes text).mp decoded
  refine ⟨text, (readText_eq_ok_iff read text).mpr encoded, ?_⟩
  intro patches some native apart
  refine ⟨?_, Patch.sort_stableOrder patches, ?_⟩
  · intro p member
    have range := p.encode_replaced
    rwa [native p member, encoded] at range
  · intro ordered order m url old present
    rw [← encoded, ← Patch.encode_apply native apart order]
    exact saves_of_apply present some (Patch.apply_apart native apart)

/-- A byte order mark, a character of two bytes, two kinds of line ends and a character
of three bytes without a line end. -/
def mixedText : Text := ['\uFEFF', 'ä', '\r', '\n', '\r', '€']

/-- The bytes of the text, in one file. -/
def mixedSession : Session where
  tree := { entries := [([['a']], .file
    [0xEF, 0xBB, 0xBF, 0xC3, 0xA4, 0x0D, 0x0A, 0x0D, 0xE2, 0x82, 0xAC] 0o600)] }
  console := {}

/-- A character of four bytes for the one of two, and nothing for the last one. -/
def mixedPatches : List Patch :=
  let source : Source := ⟨mixedText, some "a"⟩
  [⟨source, 1, 2, ['𝄞'], Nat.le_succ 1, Nat.le_of_ble_eq_true rfl⟩,
    ⟨source, 5, 6, [], Nat.le_succ 5, Nat.le_of_ble_eq_true rfl⟩]

/-- The file is read, and its patches are written back with the six bytes outside of
their ranges unchanged. -/
theorem mixed_saved_bytes_spliced :
    let bytes := [0xEF, 0xBB, 0xBF, 0xC3, 0xA4, 0x0D, 0x0A, 0x0D, 0xE2, 0x82, 0xAC]
    let saved := mixedSession.save ⟨mixedText, some "a"⟩ ['a'] mixedPatches
    mixedSession.tree.read ['a'] = .ok bytes ∧ bytes.toByteArray.IsValidUTF8 ∧
      mixedPatches ≠ [] ∧ (∀ p ∈ mixedPatches, p.source.text = mixedText) ∧
      mixedPatches.Pairwise Patch.Apart ∧ saved.2 = none ∧
      saved.1.tree.read ['a'] =
        .ok [0xEF, 0xBB, 0xBF, 0xF0, 0x9D, 0x84, 0x9E, 0x0D, 0x0A, 0x0D] := by
  intro bytes saved
  have read : mixedSession.tree.read ['a'] = .ok bytes := rfl
  have encoded : Text.encode mixedText = bytes := by decide +kernel
  have valid : bytes.toByteArray.IsValidUTF8 :=
    (Text.isValidUTF8_iff bytes).mpr ⟨mixedText, (Text.decode_eq_ok_iff _ _).mpr encoded⟩
  have native : ∀ p ∈ mixedPatches, p.source.text = mixedText := by decide
  have apart : mixedPatches.Pairwise Patch.Apart := by decide
  have order : Patch.StableOrder mixedPatches mixedPatches :=
    ⟨.refl _, by decide, fun _ _ => rfl⟩
  obtain ⟨-, splices⟩ := saved_bytes_spliced mixedSession ['a'] bytes read
  obtain ⟨text, contents, each⟩ := splices valid
  cases ((readText_eq_ok_iff read mixedText).mpr encoded).symm.trans contents
  obtain ⟨-, -, saves⟩ := each mixedPatches (by decide) native apart
  have new : mixedPatches.foldr (Patch.spliceBytes mixedText) bytes =
      [0xEF, 0xBB, 0xBF, 0xF0, 0x9D, 0x84, 0x9E, 0x0D, 0x0A, 0x0D] := by decide +kernel
  obtain ⟨t, replaced⟩ : ∃ t, mixedSession.tree.replace ['a']
      [0xEF, 0xBB, 0xBF, 0xF0, 0x9D, 0x84, 0x9E, 0x0D, 0x0A, 0x0D] = .ok t := ⟨_, by rfl⟩
  have written := (saves mixedPatches order mixedSession (some "a") bytes read).written
  rw [new] at written
  obtain ⟨done, tree, now⟩ := written t replaced
  exact ⟨read, valid, by decide, native, apart, done, by rw [tree, now]⟩

end Review

end Emend
