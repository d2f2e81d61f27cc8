import Emend.Grammar.Module
import Emend.Suggestor

/-!
# Suggestors by syntax

These suggestors read a Python module and propose patches at nodes of its syntax tree, in the order
in which a walk meets them. A text that is no module leads to a warning and no patches. A fault
while the tree is built or walked leaves no patches either: none is handed out before the walk is
over. A source is visited only while the walk over its module lasts.

Nodes are found by the lines and columns of the written form of the module. Where these differ from
the lines and columns of the source, a patch lands where the source has that line and column.
-/

namespace Emend

namespace Grammar

/-- The text of a stretch. -/
def Extent.text (e : Extent) (source : Source) : Text := source.text.slice e.start e.stop

/-- The offsets that a source has for the places of a stretch of a module. -/
def Extent.span (e : Extent) (module : Module) (source : Source) : Except Fault (Nat × Nat) := do
  let opens := module.place e.start
  let closes := module.place e.stop
  let start ← source.offsetOf opens.line opens.column
  let stop ← source.offsetOf closes.line closes.column
  .ok (start, stop)

end Grammar

/-- Where an edit stands with regard to its node. -/
inductive EditPlace where
  | before
  | after
  | instead
  deriving DecidableEq, Repr

/-- A change at a node of a syntax tree. -/
structure Edit where
  place : EditPlace
  node : Grammar.Extent
  text : Text

/-- The patch of an edit of a module. -/
def Edit.patch (e : Edit) (module : Grammar.Module) (source : Source) : Except Fault Patch := do
  let (start, stop) ← e.node.span module source
  match e.place with
  | .before => Patch.build source start (some start) e.text
  | .after => Patch.build source stop (some stop) e.text
  | .instead => Patch.build source start (some stop) e.text

namespace Suggestor

open Grammar

/-- The logger of the suggestors by syntax. -/
def markingLogger : String := "codemods.python_libcst"

/-- The warning for a text that is no module. -/
def unreadable (url : Option String) : Record :=
  { level := .warning
    logger := markingLogger
    message := ("Could not parse " ++ urlOrNone url ++ ": <parser message>").toList }

/-- The patches of all edits at the marks of a module, unless a node or an edit is at fault. -/
def markPatches (source : Source) (edits : Source → Mark → List Edit) (module : Module) :
    Except Fault (List Patch) :=
  match module.fault with
  | some fault => .error (.node fault)
  | none => (module.marks.flatMap (edits source)).mapM (·.patch module source)

/-- A walk over the nodes of a module, with the source that it visits. -/
structure Walk where
  visited : Option Source := none

namespace Walk

/-- The source that is being visited. -/
def source (w : Walk) : Except Fault Source :=
  match w.visited with
  | some source => .ok source
  | none => .error .notVisiting

/-- Walk over the module of a source, with the patches of all edits. At the end no source is
visited, whether there was a fault or not. -/
def through (w : Walk) (source : Source) (edits : Source → Mark → List Edit) (module : Module) :
    Walk × Except Fault (List Patch) :=
  let begun : Walk := { w with visited := some source }
  let patches := begun.source.bind fun visited => markPatches visited edits module
  ({ begun with visited := none }, patches)

/-- A walk visits the source that it is given, wherever it has been before. -/
theorem through_patches (w : Walk) (source : Source) (edits : Source → Mark → List Edit)
    (module : Module) : (w.through source edits module).2 = markPatches source edits module :=
  rfl

end Walk

/-- The proposals of the edits at the nodes of a module. -/
def markProposals (edits : Source → Mark → List Edit) (source : Source) : Proposals :=
  match Module.read? source.text with
  | none => .note (unreadable source.url) .done
  | some module =>
    match (Walk.through {} source edits module).2 with
    | .error fault => .fault fault
    | .ok patches => .ofList (patches.map .ok)

/-- A new name for every name that is `old`. -/
def renameEdits (old new : Text) (source : Source) : Mark → List Edit
  | .name e => if e.text source = old then [⟨.instead, e, new⟩] else []
  | _ => []

/-- Renames a symbol. -/
def renameSymbol (old new : Text) : Suggestor :=
  { kind := "RenameSymbolSuggestor"
    name := "rename_symbol"
    description := "Rename symbol '" ++ String.ofList old ++ "' to '" ++ String.ofList new ++ "'"
    skips := fun text => .ok (!text.hasPart old)
    proposals := markProposals (renameEdits old new) }

/-- The function whose calls become log records. -/
def printName : Text := "print".toList

/-- A logging function for every call of the print function. -/
def logEdits (level : Text) (source : Source) : Mark → List Edit
  | .call _ (some e) =>
    if e.text source = printName then [⟨.instead, e, "logging.".toList ++ level⟩] else []
  | _ => []

/-- Turns calls of the print function into log records of a level. -/
def printToLog (level : Text) : Suggestor :=
  { kind := "ConvertPrintToLoggingSuggestor"
    name := "convert_print_to_logging"
    description := "Convert print() calls to logging." ++ String.ofList level ++ "()"
    skips := fun text => .ok (!text.hasPart printName)
    proposals := markProposals (logEdits (Text.lowerText level)) }

/-- The types that names of parameters suggest. -/
def hints : List (String × List String) :=
  [("int", ["count", "index", "length", "size", "num"]),
    ("str", ["name", "text", "message", "content", "data"]),
    ("bool", ["flag", "enabled", "disabled", "active"]),
    ("list", ["items", "values", "args", "params"])]

/-- The type that the name of a parameter suggests, whatever its case. -/
def hint? (name : Text) : Option String :=
  let name := Text.lowerText name
  (hints.find? fun (_, names) => names.any fun n => n.toList = name).map (·.1)

/-- A type for every parameter without one whose name suggests it, except where a parameter cannot
have one. -/
def hintEdits (source : Source) : Mark → List Edit
  | .parameter e false false =>
    match hint? (e.text source) with
    | some type => [⟨.after, e, ": ".toList ++ type.toList⟩]
    | none => []
  | _ => []

/-- Adds types to parameters by their names; without `simple` it adds none. -/
def typeHints (simple : Bool) : Suggestor :=
  { kind := "AddTypeHintsSuggestor"
    name := "add_type_hints"
    description := "Add basic type hints to function parameters"
    skips := fun _ => .ok false
    proposals := markProposals fun source mark => if simple then hintEdits source mark else [] }

/-- The kinds of nodes that a wrapper can ask for. -/
inductive NodeKind where
  | integer
  | name
  | string
  | call
  | member
  deriving DecidableEq, Repr

/-- The stretch of a mark of a kind. -/
def NodeKind.extent? : NodeKind → Mark → Option Extent
  | integer, .integer e => some e
  | name, .name e => some e
  | string, .string e => some e
  | call, .call e _ => some e
  | member, .member e => some e
  | _, _ => none

/-- The edits at one node: before it, after it, and in its place, each if it has a text. -/
def wrapEdits (before after instead : Option Text) (e : Extent) : List Edit :=
  (before.map (⟨.before, e, ·⟩)).toList ++ (after.map (⟨.after, e, ·⟩)).toList ++
    (instead.map (⟨.instead, e, ·⟩)).toList

/-- Puts texts around or in place of every node of a kind. -/
def wrapping (name description : String) (node : NodeKind) (before after instead : Option Text) :
    Suggestor :=
  { kind := "WrapSuggestor"
    name := nameOr "WrapSuggestor" name
    description
    skips := fun _ => .ok false
    proposals := markProposals fun _ mark =>
      ((node.extent? mark).map (wrapEdits before after instead)).getD [] }

end Suggestor

end Emend
