import Emend.Query
import Emend.Value

/-!
# Configuration

The settings of a review. They are read from a document with the tables `prompt`, `diff` and
`files`, and each setting that is absent has its default. A setting may hold any value; only the
three tables must be tables.
-/

namespace Emend

/-- The settings of a review. -/
structure Config where
  defaultYes : Value := .bool false
  clearScreen : Value := .bool true
  contextLines : Value := .int 2
  minLines : Value := .int 5
  fallbackLines : Value := .int 10
  reservedLines : Value := .int 10
  followLinks : Value := .bool true
  ignoredGlobs : Value := .array (defaultGlobs.map .text)

namespace Config

/-- The settings where none is given. -/
def default : Config := {}

/-- The table under a name of a document, empty if it is absent. -/
def section? (name : String) (document : List (Text × Value)) :
    Except Fault (List (Text × Value)) :=
  match Value.lookup name.toList document with
  | none => .ok []
  | some (.table entries) => .ok entries
  | some other => .error (.setting (.notTable other.typeName))

/-- A setting of a table, or its default. -/
def setting (table : List (Text × Value)) (name : String) (default : Value) : Value :=
  (Value.lookup name.toList table).getD default

/-- The settings of a document. -/
def ofDocument (document : List (Text × Value)) : Except Fault Config := do
  let prompt ← section? "prompt" document
  let diff ← section? "diff" document
  let files ← section? "files" document
  .ok {
    defaultYes := setting prompt "default_yes" default.defaultYes
    clearScreen := setting prompt "clear_screen" default.clearScreen
    contextLines := setting diff "context_lines" default.contextLines
    minLines := setting diff "min_lines" default.minLines
    fallbackLines := setting diff "fallback_lines" default.fallbackLines
    reservedLines := setting diff "reserved_lines" default.reservedLines
    followLinks := setting files "follow_links" default.followLinks
    ignoredGlobs := setting files "ignored_globs" default.ignoredGlobs }

/-- Whether two configurations have equal settings. -/
def equal (a b : Config) : Bool :=
  a.defaultYes.equal b.defaultYes && a.clearScreen.equal b.clearScreen &&
    a.contextLines.equal b.contextLines && a.minLines.equal b.minLines &&
    a.fallbackLines.equal b.fallbackLines && a.reservedLines.equal b.reservedLines &&
    a.followLinks.equal b.followLinks && a.ignoredGlobs.equal b.ignoredGlobs

/-- The items of a setting that should be a list of globs: those of a list, the characters of a
text, or the keys of a table. -/
def items : Value → Except Fault (List Value)
  | .array items => .ok items
  | .text t => .ok (t.map fun c => .text [c])
  | .table entries => .ok (entries.map fun (k, _) => .text k)
  | other => .error (.setting (.notIterable other.typeName))

/-- The globs that a query ignores: those of a setting, or the default ones where it is null. -/
def globs : Value → Except Fault (List Value)
  | .null => .ok (defaultGlobs.map .text)
  | v => items v

end Config

end Emend
