import Emend.Query
import Emend.Suggestor.Builtin

/-!
# Transforms

The built-in suggestors under the names by which a command line asks for them, with parameters given
as keys and values. A key that is given again keeps its place and takes the new value.
-/

namespace Emend.Command

/-- The transforms in the order of their names. -/
def transforms : List Builtin :=
  [.typeHints, .printToLog, .removeConsole, .renameExport, .renameSymbol]

/-- The name of a transform. -/
def transformName : Builtin → String
  | .renameSymbol => "rename_symbol"
  | .printToLog => "convert_print_to_logging"
  | .typeHints => "add_type_hints"
  | .renameExport => "rename_export"
  | .removeConsole => "remove_console"

/-- What a transform does, in a line. -/
def transformSummary : Builtin → String
  | .renameSymbol => "Rename a symbol throughout the code."
  | .printToLog => "Convert print() calls to logging calls."
  | .typeHints => "Add simple type hints to function parameters."
  | .renameExport => "Rename an export symbol."
  | .removeConsole =>
    "Remove console.log, console.warn, etc. statements that sit on their own line."

/-- The files that a transform applies to. -/
def transformFilter : Builtin → PathFilter
  | .renameExport => .script
  | .removeConsole => .script
  | _ => .python

/-- The transform with a name. -/
def transform? (name : Text) : Option Builtin :=
  transforms.find? fun b => (transformName b).toList = name

/-- A parameter of a command line that cannot be used: where it stands, and why. -/
structure BadParameter where
  hint : String
  message : Text
  deriving DecidableEq, Repr

/-- A parameter that cannot be used, in words. -/
def BadParameter.formatted (p : BadParameter) : Text :=
  ("Invalid value for " ++ p.hint ++ ": ").toList ++ p.message

/-- Where parameters stand on a command line. -/
def parameterHint : String := "--param"

/-- Where the name of a transform stands on a command line. -/
def transformHint : String := "TRANSFORM"

/-- Set a key to a value. -/
def setParameter (key value : Text) : List (Text × Text) → List (Text × Text)
  | [] => [(key, value)]
  | (k, v) :: rest =>
    if k = key then (k, value) :: rest else (k, v) :: setParameter key value rest

/-- Add a parameter given as a key, an equals sign and a value. -/
def addParameter (found : List (Text × Text)) (word : Text) :
    Except BadParameter (List (Text × Text)) :=
  let key := word.takeWhile (· ≠ '=')
  if !word.contains '=' || key.isEmpty then
    .error ⟨parameterHint, "expected key=value, got '".toList ++ word ++ ['\'']⟩
  else .ok (setParameter (Text.trim key) ((word.dropWhile (· ≠ '=')).drop 1) found)

/-- The parameters of a command line. -/
def readParameters (words : List Text) : Except BadParameter (List (Text × Text)) :=
  words.foldlM addParameter []

/-- The names of all transforms. -/
def transformNames : String := ", ".intercalate (transforms.map transformName)

/-- Build the suggestor of a transform. -/
def buildTransform (name : Text) (parameters : List (Text × Text)) :
    Except BadParameter (Builtin × Suggestor) :=
  match transform? name with
  | none =>
    .error ⟨transformHint, "unknown transform '".toList ++ name ++
      ("' (choose from " ++ transformNames ++ ")").toList⟩
  | some b =>
    match b.build (parameters.map fun (key, value) => (key, .text value)) with
    | .ok suggestor => .ok (b, suggestor)
    | .error fault =>
      .error ⟨parameterHint,
        "invalid parameters for ".toList ++ name ++ ": ".toList ++ fault.message.toList⟩

end Emend.Command
