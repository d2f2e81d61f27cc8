import Emend.Suggestor.Marking
import Emend.Suggestor.Matching

/-!
# Built-in suggestors

The suggestors that come with the tool, built from parameters by name. Parameters are looked at in
the order given: one that the suggestor does not have is refused before one that is missing.
-/

namespace Emend

/-- The suggestors that come with the tool. -/
inductive Builtin where
  | renameSymbol
  | printToLog
  | typeHints
  | renameExport
  | removeConsole
  deriving DecidableEq, Repr

namespace Builtin

/-- The kind of suggestor, as it names itself. -/
def kind : Builtin → String
  | renameSymbol => "RenameSymbolSuggestor"
  | printToLog => "ConvertPrintToLoggingSuggestor"
  | typeHints => "AddTypeHintsSuggestor"
  | renameExport => "RenameExportSuggestor"
  | removeConsole => "RemoveConsoleSuggestor"

/-- The parameters that must be given. -/
def required : Builtin → List String
  | renameSymbol => ["old_name", "new_name"]
  | renameExport => ["old_name", "new_name"]
  | _ => []

/-- The parameters that may be given. -/
def optional : Builtin → List String
  | printToLog => ["level"]
  | typeHints => ["simple"]
  | _ => []

/-- The parameter that is never given by name. -/
def receiver : String := "self"

/-- What is wrong with one parameter, if anything. -/
def refuse (b : Builtin) (name : String) : Option String :=
  if name = receiver then some ("got multiple values for argument '" ++ receiver ++ "'")
  else if b.required.contains name || b.optional.contains name then none
  else some ("got an unexpected keyword argument '" ++ name ++ "'")

/-- What is missing, if anything. -/
def lacking (b : Builtin) (names : List String) : Option String :=
  match b.required.filter fun name => !names.contains name with
  | [] => none
  | [a] => some ("missing 1 required positional argument: '" ++ a ++ "'")
  | missing =>
    some ("missing " ++ Text.ofNat missing.length ++ " required positional arguments: " ++
      " and ".intercalate (missing.map fun a => "'" ++ a ++ "'"))

/-- What is wrong with the parameters of a suggestor, if anything. -/
def fault? (b : Builtin) (names : List String) : Option Fault :=
  ((names.findSome? b.refuse).or (b.lacking names)).map fun problem =>
    .badParameters (b.kind ++ ".__init__() " ++ problem)

/-- A parameter as a text. -/
def parameter (parameters : List (Text × Value)) (name : String) (default : Text) :
    Except Fault Text :=
  match Value.lookup name.toList parameters with
  | some v => v.shown
  | none => .ok default

/-- Build a suggestor. -/
def build (b : Builtin) (parameters : List (Text × Value)) : Except Fault Suggestor :=
  match b.fault? (parameters.map fun (name, _) => String.ofList name) with
  | some fault => .error fault
  | none =>
    let rename (kind : Text → Text → Suggestor) : Except Fault Suggestor := do
      let old ← parameter parameters "old_name" []
      let new ← parameter parameters "new_name" []
      .ok (kind old new)
    match b with
    | renameSymbol => rename .renameSymbol
    | printToLog => (parameter parameters "level" "info".toList).map .printToLog
    | typeHints =>
      .ok (.typeHints (((Value.lookup "simple".toList parameters).map Value.isTruthy).getD true))
    | renameExport => rename .renameExport
    | removeConsole => .ok .removeConsole

end Builtin

end Emend
