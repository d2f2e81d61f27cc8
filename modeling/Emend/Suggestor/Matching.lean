import Emend.Pattern.Match
import Emend.Suggestor

/-!
# Suggestors by pattern

One patch for each match of an expression, over the range of one group of the match. A group that
took no part in the match makes no patch.

Two such suggestors are built in. One renames a name that a script exports, whether in braces, with
or without an alias, or as the default. The other removes lines that hold a call on the console and
nothing else.
-/

namespace Emend

namespace Match

/-- The text of a group; empty if it took no part. -/
def groupText (m : Match) (text : Text) (group : Nat) : Text :=
  match m.span group with
  | some (start, stop) => text.slice start stop
  | none => []

/-- A template with each backslash and digit, of any script, replaced by that group. -/
def expand (m : Match) (e : Expression) (text : Text) : Text → Except Fault Text
  | '\\' :: c :: rest =>
    match Text.decimalValue? c with
    | some index =>
      match e.group? (.index index) with
      | none => .error .noSuchGroup
      | some group => (expand m e text rest).map (m.groupText text group ++ ·)
    | none => (expand m e text (c :: rest)).map ('\\' :: ·)
  | c :: rest => (expand m e text rest).map (c :: ·)
  | [] => .ok []

end Match

/-- The range of a group in a match of an expression; the expression may lack the group. -/
def Expression.spanOf (e : Expression) (group : GroupKey) (m : Match) :
    Except Fault (Option (Nat × Nat)) :=
  match e.group? group with
  | none => .error .noSuchGroup
  | some group => .ok (m.span group)

namespace Suggestor

/-- The patch for a match, if its range is there: `range` picks the range of a match and
`replacement` its new text. -/
def matchPatch (source : Source) (range : Match → Except Fault (Option (Nat × Nat)))
    (replacement : Match → Except Fault Text) (m : Match) : Option (Except Fault Patch) :=
  match range m with
  | .error f => some (.error f)
  | .ok none => none
  | .ok (some (start, stop)) =>
    some ((replacement m).bind fun text => Patch.build source start (some stop) text)

/-- The patches for matches, in the order of the matches. -/
def matchPatches (source : Source) (range : Match → Except Fault (Option (Nat × Nat)))
    (replacement : Match → Except Fault Text) (found : List Match) : List (Except Fault Patch) :=
  found.filterMap (matchPatch source range replacement)

/-- The suggestor that proposes a patch for each match of an expression: `range` picks the range of
a match, and `replacement` gives its new text from the whole text and the match. -/
def matching (kind name description : String) (e : Expression)
    (range : Match → Except Fault (Option (Nat × Nat)))
    (replacement : Text → Match → Except Fault Text) (skips : Text → Bool) : Suggestor :=
  { kind
    name := nameOr kind name
    description
    skips := fun text => .ok (skips text)
    proposals := fun source =>
      .ofList (matchPatches source range (replacement source.text) (e.findAll source.text)) }

/-- The suggestor that replaces one group of each match by an expanded template. -/
def replacing (kind name description : String) (e : Expression) (group : GroupKey)
    (template : Text) (skips : Text → Bool) : Suggestor :=
  matching kind name description e (e.spanOf group) (fun text m => m.expand e text template) skips

end Suggestor

namespace Pattern

/-- White space, any amount of it. -/
def spaces (least : Nat) : Pattern :=
  .times least none .most (.one (.set [.ofKind .space false false] false .exact))

/-- Word characters, at least one. -/
def wordCharacters : Pattern :=
  .times 1 none .most (.one (.set [.ofKind .word false false] false .exact))

/-- An edge of a word. -/
def edge : Pattern := .place (.wordEdge false)

/-- One given character. -/
def only (c : Char) : Pattern := .one (.char c .exact)

/-- A pattern or nothing. -/
def optional (p : Pattern) : Pattern := .times 0 (some 1) .most p

/-- The alias of a name in the braces of an export. -/
def aliasing : Pattern := .sequence [literal "as".toList, spaces 1, wordCharacters, spaces 0]

/-- What follows a name in the braces of an export. -/
def closing : Pattern := .sequence [spaces 0, optional aliasing, only '\x7d']

/-- A name in the braces of an export, alone or with an alias; the name is group one. -/
def exportedName (name : Text) : Pattern :=
  .sequence [edge, literal "export".toList, spaces 0, only '\x7b', spaces 0,
    .group 1 (literal name), edge, .look 0 false closing]

/-- A name as the default export; the name is group two. -/
def exportedDefault (name : Text) : Pattern :=
  .sequence [edge, literal "export".toList, spaces 1, literal "default".toList, spaces 1,
    .group 2 (literal name), edge]

/-- Blanks and tabs. -/
def indentation : Pattern := .times 0 none .most (.one (.set [.char ' ', .char '\t'] false .exact))

/-- A line that holds a call on the console and nothing else, with its end. -/
def consoleLine : Pattern :=
  .sequence [.place .lineStart, indentation, literal "console.".toList, wordCharacters, only '(',
    .times 0 none .most (.one (.set [.char ';', .char '\n'] true .exact)), only ')',
    optional (only ';'), indentation,
    .either (.seq (optional (only '\r')) (only '\n')) (.place .textEnd)]

end Pattern

/-- An exported name. -/
def Expression.exported (name : Text) : Expression :=
  { pattern := .either (.exportedName name) (.exportedDefault name)
    groups := 2
    names := [("name".toList, 1), ("default".toList, 2)] }

/-- A line with a call on the console; it has no groups. -/
def Expression.consoleLine : Expression := { pattern := .consoleLine, groups := 0, names := [] }

namespace Suggestor

/-- Renames an exported name. -/
def renameExport (old new : Text) : Suggestor :=
  matching "RenameExportSuggestor" "rename_export"
    ("Rename export '" ++ String.ofList old ++ "' to '" ++ String.ofList new ++ "'")
    (.exported old) (fun m => .ok ((m.span 1).or (m.span 2))) (fun _ _ => .ok new)
    (fun text => !text.hasPart old)

/-- Removes calls on the console that have a line to themselves. -/
def removeConsole : Suggestor :=
  matching "RemoveConsoleSuggestor" "remove_console" "Remove all console.* calls"
    .consoleLine (Expression.consoleLine.spanOf (.index 0)) (fun _ _ => .ok [])
    (fun text => !text.hasPart "console.".toList)

end Suggestor

end Emend
