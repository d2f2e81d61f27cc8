import Emend.Log
import Emend.Patch
import Emend.Tree.Change
import Emend.Value

/-!
# Suggestors

A suggestor proposes patches for a source. Its proposals come one at a time and only on demand, so
they are a stream: between two patches something may happen to the tree of files or be noted in the
log, a value that is no patch may turn up, and the stream may end with a fault.

Before proposals are asked for, a suggestor can say that a text is not worth looking at. An
aggregate asks each of its parts and chains the streams of those that do not skip the text; a fault
in one ends the whole stream.
-/

namespace Emend

/-- What a suggestor hands out, in order. -/
inductive Proposals where
  | done
  | fault (f : Fault)
  | propose (patch : Patch) (rest : Proposals)
  /-- A value that is no patch, by the name of its type. -/
  | stray (type : String) (rest : Proposals)
  | act (action : TreeAction) (rest : Proposals)
  | note (record : Record) (rest : Proposals)

namespace Proposals

/-- One stream after another. A fault in the first ends both. -/
def append : Proposals → Proposals → Proposals
  | done, next => next
  | fault f, _ => fault f
  | propose patch rest, next => propose patch (rest.append next)
  | stray type rest, next => stray type (rest.append next)
  | act action rest, next => act action (rest.append next)
  | note record rest, next => note record (rest.append next)

/-- The stream of patches that may each be refused, up to the first refusal. -/
def ofList : List (Except Fault Patch) → Proposals
  | [] => done
  | .ok patch :: rest => propose patch (ofList rest)
  | .error f :: _ => fault f

end Proposals

/-- What came of a stream that was asked for everything. -/
structure Harvest where
  /-- The tree after the actions of the stream. -/
  tree : Tree
  patches : List Patch := []
  records : List Record := []
  /-- Why the stream ended early, if it did. -/
  fault : Option Fault := none

namespace Proposals

/-- Ask a stream for everything. Its actions are carried out on a tree; one that is refused ends the
stream, and so does a value that is no patch. -/
def harvest (t : Tree) : Proposals → Harvest
  | done => { tree := t }
  | fault f => { tree := t, fault := some f }
  | propose patch rest =>
    let h := rest.harvest t
    { h with patches := patch :: h.patches }
  | stray type _ => { tree := t, fault := some (.notPatch type "start") }
  | act action rest =>
    match action.perform t with
    | (t, none) => rest.harvest t
    | (t, some f) => { tree := t, fault := some (.file f) }
  | note record rest =>
    let h := rest.harvest t
    { h with records := record :: h.records }

end Proposals

/-- Something that proposes patches. -/
structure Suggestor where
  /-- The kind of suggestor, as it names itself. -/
  kind : String
  name : String
  description : String
  /-- Whether a text is not worth looking at. -/
  skips : Text → Except Fault Bool
  proposals : Source → Proposals

namespace Suggestor

/-- The name under which a suggestor goes: its own, or that of its kind. -/
def nameOr (kind name : String) : String := if name = "" then kind else name

/-- How a suggestor describes itself. -/
def label (s : Suggestor) : String := s.kind ++ "(" ++ quoted s.name ++ ")"

/-- The streams of those parts that do not skip the text, one after another. -/
def chain (source : Source) : List Suggestor → Proposals
  | [] => .done
  | part :: rest =>
    match part.skips source.text with
    | .error f => .fault f
    | .ok true => chain source rest
    | .ok false => (part.proposals source).append (chain source rest)

/-- Several suggestors as one. -/
def aggregate (parts : List Suggestor) (name : String) : Suggestor :=
  { kind := "AggregateSuggestor"
    name := nameOr "AggregateSuggestor" name
    description := "Combined suggestors"
    skips := fun _ => .ok false
    proposals := fun source => chain source parts }

end Suggestor

end Emend
