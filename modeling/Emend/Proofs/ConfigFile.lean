import Emend.Config.File
import Emend.Proofs.FileWrites
import Emend.Proofs.Utf8
import Emend.Proofs.WrittenDocuments

/-!
# The file of the configuration

What is loaded from a file is decided by its content alone, in three stages: the
bytes have to be a text, the text a document, and each section that the document
has a table. Only a text that is no document is met with the default settings. A
file that fails one of the other stages is a fault, and so is one with a number of
too many digits.

Settings of the types that they are meant to have are read back as they were
saved, if their file may be read at all. They can be saved wherever their file can
be opened, unless a number among them is too long to be written. Then the file is
left with the settings before that number.
-/

namespace Emend.Config

/-! ### Loading -/

/-- The sections that settings are read from. -/
def sectionNames : List String := ["prompt", "diff", "files"]

/-- Each section that a document has is a table. -/
def Shaped (document : Document.Entries) : Prop :=
  ∀ name ∈ sectionNames, ∀ v, Value.lookup name.toList document = some v →
    ∃ entries, v = .table entries

/-- Loading fails with a fault of a class. -/
def Raises (tree : Tree) (path : Text) (kind : String) : Prop :=
  ∃ fault, load tree path = .error fault ∧ fault.kind = kind

theorem section?_eq_ok_iff (name : String) (document : Document.Entries) :
    (∃ table, section? name document = .ok table) ↔
      ∀ v, Value.lookup name.toList document = some v → ∃ entries, v = .table entries := by
  unfold section?
  split
  · rename_i absent
    simp [absent]
  · rename_i entries present
    simp [present]
  · rename_i other untabled present
    simp only [reduceCtorEq, exists_false, present, Option.some.injEq, forall_eq', false_iff]
    rintro ⟨entries, rfl⟩
    exact untabled entries rfl

theorem section?_eq_error {name : String} {document : Document.Entries} {fault : Fault}
    (refused : section? name document = .error fault) :
    ∃ type, fault = .setting (.notTable type) := by
  unfold section? at refused
  split at refused
  · cases refused
  · cases refused
  · cases refused
    exact ⟨_, rfl⟩

/-- A document gives settings exactly if its sections are tables; otherwise it is
refused for one that is not. -/
theorem ofDocument_cases (document : Document.Entries) :
    (Shaped document ∧ ∃ config, ofDocument document = .ok config) ∨
      (¬ Shaped document ∧ ∃ type, ofDocument document = .error (.setting (.notTable type))) := by
  by_cases shaped : Shaped document
  · left
    have found (name : String) (member : name ∈ sectionNames) :=
      (section?_eq_ok_iff name document).mpr (shaped name member)
    obtain ⟨prompt, first⟩ := found "prompt" (by decide)
    obtain ⟨diff, second⟩ := found "diff" (by decide)
    obtain ⟨files, third⟩ := found "files" (by decide)
    exact ⟨shaped, by simp [ofDocument, first, second, third, bind, Except.bind]⟩
  · right
    refine ⟨shaped, ?_⟩
    cases first : section? "prompt" document with
    | error fault =>
      obtain ⟨type, rfl⟩ := section?_eq_error first
      exact ⟨type, by simp [ofDocument, first, bind, Except.bind]⟩
    | ok prompt =>
    cases second : section? "diff" document with
    | error fault =>
      obtain ⟨type, rfl⟩ := section?_eq_error second
      exact ⟨type, by simp [ofDocument, first, second, bind, Except.bind]⟩
    | ok diff =>
    cases third : section? "files" document with
    | error fault =>
      obtain ⟨type, rfl⟩ := section?_eq_error third
      exact ⟨type, by simp [ofDocument, first, second, third, bind, Except.bind]⟩
    | ok files =>
      refine absurd ?_ shaped
      intro name member
      simp only [sectionNames, List.mem_cons, List.not_mem_nil, or_false] at member
      rcases member with rfl | rfl | rfl
      · exact (section?_eq_ok_iff _ _).mp ⟨prompt, first⟩
      · exact (section?_eq_ok_iff _ _).mp ⟨diff, second⟩
      · exact (section?_eq_ok_iff _ _).mp ⟨files, third⟩

variable {tree : Tree} {path : Text} {bytes : List UInt8}

/-- Bytes that are no text are a fault. -/
theorem load_of_undecodable {fault : Text.Utf8Fault}
    (content : tree.read (Path.normalize path) = .ok bytes)
    (undecodable : Text.decode bytes = .error fault) :
    load tree path = .error (.undecodable fault) := by
  obtain ⟨mode, present⟩ := Tree.probe_of_read content
  simp [load, present, content, undecodable]

/-- A text that is no document gives the default settings and a warning. -/
theorem load_of_malformed {text : Text} (content : tree.read (Path.normalize path) = .ok bytes)
    (decoded : Text.decode bytes = .ok text) (malformed : Document.read text = .error .malformed) :
    load tree path =
      .ok (default, some (unread (Path.normalize path) "<toml message>".toList)) := by
  obtain ⟨mode, present⟩ := Tree.probe_of_read content
  simp [load, present, content, decoded, malformed]

/-- A number with too many digits is a fault. -/
theorem load_of_tooManyDigits {text : Text} {count : Nat}
    (content : tree.read (Path.normalize path) = .ok bytes)
    (decoded : Text.decode bytes = .ok text)
    (long : Document.read text = .error (.tooManyDigits count)) :
    load tree path = .error (.tooManyDigits count) := by
  obtain ⟨mode, present⟩ := Tree.probe_of_read content
  simp [load, present, content, decoded, long]

/-- A document gives its settings. -/
theorem load_of_document {text : Text} {document : Document.Entries}
    (content : tree.read (Path.normalize path) = .ok bytes)
    (decoded : Text.decode bytes = .ok text) (read : Document.read text = .ok document) :
    load tree path = (ofDocument document).map fun config => (config, none) := by
  obtain ⟨mode, present⟩ := Tree.probe_of_read content
  simp [load, present, content, decoded, read]

/-- What is loaded from a file is decided by its content. Each of five outcomes
occurs under its own condition only, and only a text that is no document is met
with the default settings. -/
theorem load_classified (tree : Tree) (path : Text) (bytes : List UInt8)
    (content : tree.read (Path.normalize path) = .ok bytes) :
    (Raises tree path "UnicodeDecodeError" ↔ ¬ bytes.toByteArray.IsValidUTF8) ∧
      (Raises tree path "ValueError" ↔
        ∃ text count, Text.encode text = bytes ∧
          Document.read text = .error (.tooManyDigits count)) ∧
      (Raises tree path "AttributeError" ↔
        ∃ text document, Text.encode text = bytes ∧ Document.read text = .ok document ∧
          ¬ Shaped document) ∧
      ((∃ reason, load tree path = .ok (default, some (unread (Path.normalize path) reason))) ↔
        ∃ text, Text.encode text = bytes ∧ Document.read text = .error .malformed) ∧
      ((∃ config, load tree path = .ok (config, none)) ↔
        ∃ text document, Text.encode text = bytes ∧ Document.read text = .ok document ∧
          Shaped document) := by
  simp only [Text.isValidUTF8_iff, ← Text.decode_eq_ok_iff, Raises]
  cases decoded : Text.decode bytes with
  | error fault => simp [load_of_undecodable content decoded, Fault.kind]
  | ok text =>
    cases read : Document.read text with
    | error refusal =>
      cases refusal with
      | malformed =>
        have warned : ∃ reason, load tree path =
            .ok (default, some (unread (Path.normalize path) reason)) :=
          ⟨_, load_of_malformed content decoded read⟩
        simp only [warned, true_iff]
        simp [load_of_malformed content decoded read, read]
      | tooManyDigits count => simp [load_of_tooManyDigits content decoded read, read, Fault.kind]
    | ok document =>
      have loaded := load_of_document content decoded read
      rcases ofDocument_cases document with ⟨shaped, config, settings⟩ | ⟨unshaped, type, refused⟩
      · simp [loaded, settings, read, shaped, Except.map]
      · simp [loaded, refused, read, unshaped, Except.map, Fault.kind, SettingFault.kind]

/-- A home directory with a file of the configuration. -/
def homeWith (bytes : List UInt8) : Tree where
  entries := [([fileName], .file bytes Tree.fileMode)]

/-- A header that is not closed gives the default settings. -/
theorem unclosed_header_load_classified :
    (homeWith (Text.encode "[prompt".toList)).read (Path.normalize fileName) =
        .ok (Text.encode "[prompt".toList) ∧
      ∃ reason, load (homeWith (Text.encode "[prompt".toList)) fileName =
        .ok (default, some (unread (Path.normalize fileName) reason)) := by
  have content : (homeWith (Text.encode "[prompt".toList)).read (Path.normalize fileName) =
      .ok (Text.encode "[prompt".toList) := by rfl
  have malformed : Document.read "[prompt".toList = .error .malformed := by rfl
  exact ⟨content, (load_classified _ _ _ content).2.2.2.1.mpr ⟨_, rfl, malformed⟩⟩

/-- Bytes that are no text, and a section that is no table, do not give the default
settings: loading them fails. -/
theorem broken_content_raises :
    Raises (homeWith [0xff]) fileName "UnicodeDecodeError" ∧
      Raises (homeWith (Text.encode "diff = []\n".toList)) fileName "AttributeError" := by
  constructor
  · exact ⟨_, load_of_undecodable rfl rfl, rfl⟩
  · have read : Document.read "diff = []\n".toList = .ok [("diff".toList, .array [])] := by rfl
    have decoded := (Text.decode_eq_ok_iff (Text.encode "diff = []\n".toList) _).mpr rfl
    exact ⟨_, load_of_document rfl decoded read, rfl⟩

/-! ### Saving -/

/-- Settings of the types that they are meant to have. -/
structure Settings where
  defaultYes : Bool
  clearScreen : Bool
  contextLines : Int
  minLines : Int
  fallbackLines : Int
  reservedLines : Int
  followLinks : Bool
  ignoredGlobs : List Text

/-- The tree in which the file of a path has been opened to be written: the
directories on the way are made, and the file is empty. -/
def opened (tree : Tree) (path : Text) : Tree.Changed :=
  Tree.andThen (tree.makeDirectories (directoryOf (Path.normalize path))) fun made =>
    made.changed (made.write (Path.normalize path) [])

namespace Settings

def config (s : Settings) : Config where
  defaultYes := .bool s.defaultYes
  clearScreen := .bool s.clearScreen
  contextLines := .int s.contextLines
  minLines := .int s.minLines
  fallbackLines := .int s.fallbackLines
  reservedLines := .int s.reservedLines
  followLinks := .bool s.followLinks
  ignoredGlobs := .array (s.ignoredGlobs.map .text)

/-- The numbers among the settings. -/
def numbers (s : Settings) : List Int :=
  [s.contextLines, s.minLines, s.fallbackLines, s.reservedLines]

/-- The tables that the settings are saved in. -/
def sections (s : Settings) : List (Text × Document.Entries) :=
  [("prompt".toList, [
      ("default_yes".toList, .bool s.defaultYes),
      ("clear_screen".toList, .bool s.clearScreen)]),
    ("diff".toList, [
      ("context_lines".toList, .int s.contextLines),
      ("min_lines".toList, .int s.minLines),
      ("fallback_lines".toList, .int s.fallbackLines),
      ("reserved_lines".toList, .int s.reservedLines)]),
    ("files".toList, [
      ("follow_links".toList, .bool s.followLinks),
      ("ignored_globs".toList, .array (s.ignoredGlobs.map .text))])]

variable (s : Settings)

theorem document_config : s.config.document = .ok (Document.tables s.sections) := by rfl

theorem ofDocument_sections : ofDocument (Document.tables s.sections) = .ok s.config := by rfl

theorem distinct : (s.sections.map Prod.fst).Nodup := by
  simp only [sections, List.map_cons, List.map_nil]
  decide

theorem keys : ∀ t ∈ s.sections, (Document.names t.2).Nodup := by
  simp only [sections, Document.names, List.forall_mem_cons, List.map_cons, List.map_nil]
  decide

variable {s}

/-- The settings can be written but for the digits of a number. -/
theorem typed : ∀ t ∈ s.sections, ∀ e ∈ t.2, Document.StorableButDigits e.2 := by
  have globs : ∀ v ∈ s.ignoredGlobs.map Value.text, Document.Storable v := by
    intro v member
    obtain ⟨t, _, rfl⟩ := List.mem_map.mp member
    exact .text t
  simp only [sections, List.forall_mem_cons, List.not_mem_nil, false_implies, implies_true,
    and_true]
  exact ⟨⟨.inl (.bool _), .inl (.bool _)⟩, ⟨.inr ⟨_, rfl⟩, .inr ⟨_, rfl⟩, .inr ⟨_, rfl⟩,
    .inr ⟨_, rfl⟩⟩, ⟨.inl (.bool _), .inl (.array globs)⟩⟩

/-- What can be written is decided by the numbers. -/
theorem storable_iff :
    (∀ t ∈ s.sections, ∀ e ∈ t.2, Document.Storable e.2) ↔
      ∀ n ∈ s.numbers, n.natAbs < Nat.pow 10 Text.maxDigits := by
  have number (n : Int) : Document.Storable (.int n) ↔ n.natAbs < Nat.pow 10 Text.maxDigits := by
    constructor
    · rintro (_ | short)
      exact short
    · exact .int
  have globs : Document.Storable (.array (s.ignoredGlobs.map .text)) := by
    refine .array fun v member => ?_
    obtain ⟨t, _, rfl⟩ := List.mem_map.mp member
    exact .text t
  simp only [sections, numbers, List.forall_mem_cons, List.not_mem_nil, false_implies,
    implies_true, and_true, number, Document.Storable.bool, globs, true_and]

/-- The settings are put into words exactly if no number among them is too long, and then they are
read back. -/
theorem write_sections_cases :
    ((∀ n ∈ s.numbers, n.natAbs < Nat.pow 10 Text.maxDigits) ∧
        ∃ text, Document.write (Document.tables s.sections) = { text } ∧
          Document.read text = .ok (Document.tables s.sections)) ∨
      (¬ ∀ n ∈ s.numbers, n.natAbs < Nat.pow 10 Text.maxDigits) ∧
        (Document.write (Document.tables s.sections)).fault = some .tooLongNumber := by
  rw [← storable_iff]
  exact Document.write_tables_cases typed (distinct s) (keys s)

variable {tree t : Tree} {path : Text}

theorem save_of_unopened {fault : FileFault} (unopened : opened tree path = (t, some fault)) :
    s.config.save tree path = (t, some (.file fault)) := by
  rw [opened] at unopened
  rcases directories : tree.makeDirectories (directoryOf (Path.normalize path)) with
    ⟨made, _ | cause⟩
  · rw [directories] at unopened
    simp only [Tree.andThen] at unopened
    rcases emptied : made.write (Path.normalize path) [] with cause | emptied
    · rw [emptied] at unopened
      cases unopened
      simp only [save, document_config, directories, emptied]
    · rw [emptied] at unopened
      cases unopened
  · rw [directories] at unopened
    cases unopened
    simp only [save, directories]

/-- Once the file is open it is filled with what can be put into words. -/
theorem save_of_opened (entered : opened tree path = (t, none)) :
    ∃ made saved, tree.makeDirectories (directoryOf (Path.normalize path)) = (made, none) ∧
      made.write (Path.normalize path) [] = .ok t ∧
      t.write (Path.normalize path)
        (Text.encode (Document.write (Document.tables s.sections)).text) = .ok saved ∧
      s.config.save tree path =
        (saved, (Document.write (Document.tables s.sections)).fault) := by
  rw [opened] at entered
  rcases directories : tree.makeDirectories (directoryOf (Path.normalize path)) with
    ⟨made, _ | cause⟩
  · rw [directories] at entered
    simp only [Tree.andThen] at entered
    rcases emptied : made.write (Path.normalize path) [] with cause | emptied
    · rw [emptied] at entered
      cases entered
    · rw [emptied] at entered
      cases entered
      obtain ⟨saved, filled⟩ := Tree.write_of_write emptied
        (Text.encode (Document.write (Document.tables s.sections)).text)
      refine ⟨made, saved, rfl, emptied, filled, ?_⟩
      simp only [save, document_config, directories, emptied, filled]
  · rw [directories] at entered
    cases entered

end Settings

/-- Settings are saved exactly if their file can be opened and no number among them
is too long to be written; if one is too long, that is what saving fails with. Whenever
settings are saved, loading the file gives the same settings, with no warning, unless the file
was there before and may not be read. -/
theorem saved_settings_loaded (s : Settings) (tree : Tree) (path : Text) :
    ((s.config.save tree path).2 = none ↔ (opened tree path).2 = none ∧
        ∀ n ∈ s.numbers, n.natAbs < Nat.pow 10 Text.maxDigits) ∧
      ((opened tree path).2 = none → (∃ n ∈ s.numbers, Nat.pow 10 Text.maxDigits ≤ n.natAbs) →
        (s.config.save tree path).2 = some .tooLongNumber) ∧
      ((s.config.save tree path).2 = none →
        load (s.config.save tree path).1 path = .ok (s.config, none) ∨
          (s.config.save tree path).1.read (Path.normalize path) = .error .denied ∧
            ∃ made, tree.makeDirectories (directoryOf (Path.normalize path)) = (made, none) ∧
              made.read (Path.normalize path) = .error .denied) := by
  rcases entered : opened tree path with ⟨t, _ | fault⟩
  · obtain ⟨made, saved, directories, emptied, filled, outcome⟩ :=
      s.save_of_opened entered
    rw [outcome]
    rcases s.write_sections_cases with ⟨short, text, written, read⟩ | ⟨long, fault⟩
    · rw [written] at filled ⊢
      refine ⟨iff_of_true rfl ⟨rfl, short⟩, ?_, ?_⟩
      · rintro - ⟨n, member, long⟩
        exact absurd (short n member) (Nat.not_lt.mpr long)
      · intro _
        rcases Tree.read_of_write filled with content | ⟨denied, still⟩
        · have decoded := (Text.decode_eq_ok_iff (Text.encode text) text).mpr rfl
          left
          rw [load_of_document content decoded read, s.ofDocument_sections]
          rfl
        · rcases Tree.read_of_write emptied with content | ⟨before, -⟩
          · cases content.symm.trans denied
          · exact .inr ⟨still, made, directories, before⟩
    · have unsaved : (saved, (Document.write (Document.tables s.sections)).fault).2 ≠ none := by
        simp [fault]
      exact ⟨iff_of_false unsaved fun both => long both.2, fun _ _ => fault,
        fun succeeded => absurd succeeded unsaved⟩
  · rw [s.save_of_unopened entered]
    simp

/-- Settings with signs in the globs that have to be escaped. -/
def escapedGlobs : Settings where
  defaultYes := true
  clearScreen := false
  contextLines := -3
  minLines := 0
  fallbackLines := 1000000000000000000000000000000
  reservedLines := 10
  followLinks := false
  ignoredGlobs := [[], "a\"b\\c\n\t\r\x7f\x00".toList, "\"\"\"".toList, "α/*]".toList]

/-- They are saved in a directory that has to be made, and read back. -/
theorem escaped_globs_loaded :
    ∃ saved, escapedGlobs.config.save {} "home/settings.toml".toList = (saved, none) ∧
      load saved "home/settings.toml".toList = .ok (escapedGlobs.config, none) := by
  obtain ⟨saves, -, loads⟩ := saved_settings_loaded escapedGlobs {} "home/settings.toml".toList
  have short : ∀ n ∈ escapedGlobs.numbers, n.natAbs < Nat.pow 10 Text.maxDigits := by
    intro n member
    rw [← Text.length_toDigits_le_iff _ (by decide)]
    revert n
    decide
  have succeeded := saves.mpr ⟨rfl, short⟩
  refine ⟨_, Prod.ext rfl succeeded, ?_⟩
  rcases loads succeeded with loaded | ⟨-, made, directories, denied⟩
  · exact loaded
  · cases directories.symm.trans rfl
    cases denied

/-- The default settings with another number of lines of context. -/
def withContext (lines : Int) : Settings where
  defaultYes := false
  clearScreen := true
  contextLines := lines
  minLines := 5
  fallbackLines := 10
  reservedLines := 10
  followLinks := true
  ignoredGlobs := defaultGlobs

/-- What is left of them in a file if the lines of context cannot be written. -/
def beginning : Text := "[prompt]\ndefault_yes = false\nclear_screen = true\n\n[diff]\n".toList

theorem write_withContext {lines : Int} (long : Text.isWritable lines = false) :
    Document.write (Document.tables (withContext lines).sections) =
      { text := beginning, fault := some .tooLongNumber } := by
  have typed := (withContext lines).typed
  rw [Settings.sections] at typed
  obtain ⟨first, rest⟩ := List.forall_mem_cons.mp typed
  obtain ⟨second, -⟩ := List.forall_mem_cons.mp rest
  rw [Document.write_tables, Settings.sections, Document.writeSections_tables_cons first,
    Document.writeSections_tables_cons second]
  simp only [Document.writeLines, Document.writeValue, withContext,
    Text.writeInt_of_unwritable long]
  rfl

theorem load_beginning :
    load (homeWith (Text.encode beginning)) fileName = .ok (default, none) := by
  have read : Document.read beginning = .ok [
      ("prompt".toList, .table [("default_yes".toList, .bool false),
        ("clear_screen".toList, .bool true)]),
      ("diff".toList, .table [])] := by rfl
  have decoded := (Text.decode_eq_ok_iff (Text.encode beginning) _).mpr rfl
  rw [load_of_document rfl decoded read]
  rfl

/-- With too many lines of context to be written the settings are not saved, and the file that is
left is loaded as the default settings. -/
theorem long_context_not_saved :
    let settings := withContext (Nat.pow 10 Text.maxDigits : Nat)
    ∃ left, settings.config.save {} fileName = (left, some .tooLongNumber) ∧
      load left fileName = .ok (default, none) ∧ default ≠ settings.config := by
  have large : 2 < Nat.pow 10 Text.maxDigits :=
    Nat.lt_trans (by decide) (Text.lt_pow_digits Text.maxDigits)
  have long : Text.isWritable (Nat.pow 10 Text.maxDigits : Nat) = false :=
    (Text.isWritable_eq_false_iff _).mpr (Nat.le_of_eq (Int.natAbs_natCast _).symm)
  generalize Nat.pow 10 Text.maxDigits = lines at large long
  have entered : opened {} fileName = (homeWith [], none) := rfl
  obtain ⟨_, left, -, -, filled, saved⟩ := (withContext lines).save_of_opened entered
  rw [write_withContext long] at filled saved
  have rewritten : (homeWith []).write (Path.normalize fileName) (Text.encode beginning) =
      .ok (homeWith (Text.encode beginning)) := rfl
  cases rewritten.symm.trans filled
  refine ⟨_, saved, load_beginning, ?_⟩
  intro same
  have number : Value.int 2 = .int lines := congrArg Config.contextLines same
  have : (2 : Int) = lines := Value.int.inj number
  omega

end Emend.Config
