import Emend.Suggestor

/-!
# Scripted suggestors

A suggestor that carries out a list of steps for every source: it proposes given patches, hands out
values that are no patches, changes the tree of files, or raises an error.
-/

namespace Emend

/-- One step of a script. -/
inductive ScriptStep where
  /-- Propose a patch; the text, if given, takes the place of the source's own. -/
  | patch (text : Option Text) (start : Int) (stop : Option Int) (replacement : Text)
  | stray (type : String)
  | raise (message : String)
  | act (action : TreeAction)
  deriving DecidableEq, Repr

/-- How a script answers whether to skip a text. -/
inductive ScriptSkip where
  | answer (skip : Bool)
  | raise
  deriving DecidableEq, Repr

/-- How a script starts to hand out proposals. -/
inductive ScriptStart where
  | steps
  | raise
  | nothing
  deriving DecidableEq, Repr

namespace Suggestor

/-- The stream of the steps of a script. -/
def scriptProposals (source : Source) : List ScriptStep → Proposals
  | [] => .done
  | .patch text start stop replacement :: rest =>
    match Patch.build { source with text := text.getD source.text } start stop replacement with
    | .ok patch => .propose patch (scriptProposals source rest)
    | .error f => .fault f
  | .stray type :: rest => .stray type (scriptProposals source rest)
  | .raise message :: _ => .fault (.raised message)
  | .act action :: rest => .act action (scriptProposals source rest)

/-- A suggestor that carries out a script. -/
def scripted (name description : String) (skip : ScriptSkip) (start : ScriptStart)
    (steps : List ScriptStep) : Suggestor :=
  { kind := "ScriptedSuggestor"
    name := nameOr "ScriptedSuggestor" name
    description
    skips := fun _ => match skip with
      | .answer skip => .ok skip
      | .raise => .error (.raised "skip failed")
    proposals := fun source => match start with
      | .steps => scriptProposals source steps
      | .raise => .fault (.raised "generate failed")
      | .nothing => .fault .nothingReturned }

end Suggestor

end Emend
