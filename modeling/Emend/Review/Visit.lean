import Emend.Review.Decision

/-!
# Visits

A visit takes one file: it reads it, goes through the proposals for it and commits what was
accepted, all at once, when the proposals are exhausted or when the user quits. A visit that fails
commits nothing.
-/

namespace Emend

/-- How a visit ended. -/
inductive VisitEnd where
  | completed
  | quit
  | failed (failure : Failure)
  deriving DecidableEq, Repr

namespace Review

/-- Commit what was accepted, and end as planned unless that fails. -/
def settle (source : Source) (path : Text) (accepted : List Patch) (planned : VisitEnd)
    (s : Session) : Session × VisitEnd :=
  match s.commit source path accepted with
  | (s, none) => (s, planned)
  | (s, some failure) => (s, .failed failure)

/-- Accept a patch: it is noted, and kept after those accepted before. -/
def noteAccepted (p : Patch) (s : Session) : Session :=
  s.note ("patch accepted: " ++ p.describe).toList

/-- Go through proposals; `accepted` are the patches accepted so far, in order. -/
def offer (r : Review) (suggestor : String) (source : Source) (path : Text) :
    Proposals → List Patch → Session → Session × VisitEnd
  | .done, accepted, s =>
    if r.dry then ({ s with phase := .idle }, .completed)
    else
      match settle source path accepted .completed s with
      | (s, .completed) => ({ s with phase := .idle }, .completed)
      | ended => ended
  | .fault fault, _, s => (s, .failed (.generateThrew suggestor fault))
  | .stray type _, _, s => (s, .failed (.unforeseen (.notPatch type "is_noop")))
  | .note record rest, accepted, s => offer r suggestor source path rest accepted (s.record record)
  | .act action rest, accepted, s =>
    match action.perform s.tree with
    | (tree, some fault) => ({ s with tree }, .failed (.generateThrew suggestor (.file fault)))
    | (tree, none) => offer r suggestor source path rest accepted { s with tree }
  | .propose p rest, accepted, s =>
    if p.isNoop then (s, .failed (.emptyPatch p.describe))
    else
      let s := { s with changes := s.changes + 1 }
      if r.dry then offer r suggestor source path rest accepted s
      else
        match r.decide p s with
        | (s, .error fault) => (s, .failed (.unforeseen fault))
        | (s, .ok .quit) => settle source path accepted .quit s
        | (s, .ok .reject) => offer r suggestor source path rest accepted s
        | (s, .ok .accept) =>
          offer r suggestor source path rest (accepted ++ [p]) (noteAccepted p s)
        | (s, .ok .acceptAll) =>
          offer r suggestor source path rest (accepted ++ [p])
            (noteAccepted p { s with yesToAll := true })

/-- The text of a file. -/
def readText (t : Tree) (path : Text) : Except Fault Text :=
  match t.read path with
  | .error fault => .error (.file fault)
  | .ok bytes =>
    match Text.decode bytes with
    | .error fault => .error (.undecodable fault)
    | .ok text => .ok text

/-- Visit one file with a suggestor. -/
def visit (r : Review) (suggestor : Suggestor) (path : Text) (s : Session) :
    Session × VisitEnd :=
  let s := s.note ("file: ".toList ++ path)
  match readText s.tree path with
  | .error fault => (s, .failed (.unreadable path fault))
  | .ok text =>
    match suggestor.skips text with
    | .error fault => (s, .failed (.skipThrew suggestor.label fault))
    | .ok true => (s.note "skipped".toList, .completed)
    | .ok false =>
      let source : Source := ⟨text, some (String.ofList path)⟩
      r.offer suggestor.label source path (suggestor.proposals source) [] s

end Review

end Emend
