import Emend.Proofs.History
import Emend.Proofs.Listing
import Emend.Proofs.Replacement

/-!
# The decisions of a run replayed

In a tree without links, a run with one suggestor does to the files exactly what
the input says. For every file whose visit did not fail, the decisions are those
that the input holds once the files before it have used up theirs, and the file
ends as its text with the accepted patches applied. Nothing else changes: neither
the files after the one at which the input quits nor what the query does not list.

A visit changes at most the location that its path leads to, and the paths of one
pass lead to different locations. So what a visit reads is what was there at the
start, and what it writes is there at the end.
-/

namespace Emend.Review

/-- A text that is read is that of the file at which the path arrives, if that may be read. -/
theorem readText_eq_ok_iff_lookup {t : Tree} {path text : Text} :
    readText t path = .ok text ↔
      ∃ location bytes mode, t.lookup path = some (location, .file bytes mode) ∧
        t.grants mode .read = true ∧ Text.decode bytes = .ok text := by
  constructor
  · intro read
    rw [readText] at read
    split at read
    · cases read
    rename_i bytes contents
    obtain ⟨location, mode, found, granted⟩ := Tree.read_eq_ok_iff.mp contents
    refine ⟨location, bytes, mode, (Tree.lookup_eq_some_iff ..).mpr found, granted, ?_⟩
    split at read
    · cases read
    · rename_i decoded
      cases read
      exact decoded
  · rintro ⟨location, bytes, mode, found, granted, decoded⟩
    have resolved := (Tree.lookup_eq_some_iff ..).mp found
    rw [readText, Tree.read_eq_ok_iff.mpr ⟨location, mode, resolved, granted⟩]
    simp only [decoded]

variable {r : Review}

namespace Visit

/-- What a visit that settles in a tree without links does to the tree: nothing
without accepted patches, and otherwise it changes the bytes of its file. -/
theorem SettledOn.tree_eq {v : Visit r} {text : Text} (settled : v.SettledOn text)
    (linkFree : v.before.tree.LinkFree) :
    ∃ location bytes mode, v.before.tree.lookup v.path = some (location, .file bytes mode) ∧
      v.before.tree.grants mode .read = true ∧ Text.decode bytes = .ok text ∧
      (v.decisions.accepted = [] → v.after.tree = v.before.tree) ∧
      (v.decisions.accepted ≠ [] →
        ∃ updated, Patch.apply text v.decisions.accepted = .ok updated ∧
          v.after.tree = v.before.tree.put location (.file (Text.encode updated) mode)) := by
  obtain ⟨location, bytes, mode, found, granted, decoded⟩ :=
    readText_eq_ok_iff_lookup.mp settled.read
  refine ⟨location, bytes, mode, found, granted, decoded, ?_, ?_⟩
  · intro none
    exact (settled.commits.nothing none).1
  · intro some
    obtain ⟨updated, applied, replaced, _⟩ := settled.commits.something some
    have resolved := (Tree.lookup_eq_some_iff _ _ _ _).mp found
    exact ⟨updated, applied, Tree.replace_eq_put linkFree resolved replaced⟩

/-- A visit keeps the shape of a tree without links, and all entries except the
one to which its path leads. -/
theorem frame (v : Visit r) (wet : r.dry = false) (handsOff : v.suggestor.HandsOff)
    (linkFree : v.before.tree.LinkFree) :
    v.before.tree.SameShape v.after.tree ∧ ∀ location, v.before.tree.Misses v.path location →
      v.after.tree.entryAt location = v.before.tree.entryAt location := by
  rcases v.failed_or_settled wet handsOff with ⟨_, unmoved⟩ | ⟨text, settled⟩
  · rw [unmoved.tree]
    exact ⟨.refl _, fun _ _ => rfl⟩
  obtain ⟨location, bytes, mode, found, _, _, nothing, something⟩ := settled.tree_eq linkFree
  by_cases none : v.decisions.accepted = []
  · rw [nothing none]
    exact ⟨.refl _, fun _ _ => rfl⟩
  obtain ⟨updated, _, put⟩ := something none
  have there := Tree.entryAt_of_lookup linkFree found
  rw [put]
  refine ⟨Tree.sameShape_put there, ?_⟩
  intro other misses
  rw [Tree.entryAt_put _ (Tree.ne_nil_of_file there), if_neg]
  rintro rfl
  exact misses _ found

end Visit

/-- Visits keep the shape of a tree without links, and all entries to which none
of their paths leads. -/
theorem Follows.frame {s u : Session} {visits : List (Visit r)} (follows : Follows s visits u)
    (wet : r.dry = false) (handsOff : ∀ v ∈ visits, v.suggestor.HandsOff)
    (linkFree : s.tree.LinkFree) :
    s.tree.SameShape u.tree ∧ ∀ location, (∀ v ∈ visits, s.tree.Misses v.path location) →
      u.tree.entryAt location = s.tree.entryAt location := by
  induction follows with
  | none s => exact ⟨.refl _, fun _ _ => rfl⟩
  | last v =>
    obtain ⟨same, others⟩ := v.frame wet (handsOff v List.mem_cons_self) linkFree
    exact ⟨same, fun location misses => others location (misses v List.mem_cons_self)⟩
  | next v completed further inductionHypothesis =>
    obtain ⟨same, others⟩ := v.frame wet (handsOff v List.mem_cons_self) linkFree
    obtain ⟨later, rest⟩ := inductionHypothesis
      (fun w member => handsOff w (List.mem_cons_of_mem _ member)) (same.linkFree linkFree)
    refine ⟨same.trans later, ?_⟩
    intro location misses
    rw [rest location fun w member => same.misses (misses w (List.mem_cons_of_mem _ member))]
    exact others location (misses v List.mem_cons_self)

/-- Replaying the patches of visits from the start gives, for each of them, the
decisions that it takes: the visits before it have left the answers with which it
begins. -/
theorem Follows.replay {s u : Session} {front back : List (Visit r)} {v : Visit r}
    (follows : Follows s (front ++ v :: back) u) (wet : r.dry = false)
    (handsOff : ∀ w ∈ front, w.suggestor.HandsOff) :
    (Answers.replay r.defaultYes ((front ++ v :: back).map Visit.patches)
      s.answers)[front.length]? = some v.decisions := by
  induction front generalizing s with
  | nil =>
    obtain ⟨rfl, _, _⟩ := follows.uncons
    simp only [List.nil_append, List.map_cons, Answers.replay, List.length_nil]
    split <;> rfl
  | cons w front inductionHypothesis =>
    obtain ⟨rfl, completed, further⟩ := follows.uncons
    have completed : w.ended = .completed := completed (by simp)
    obtain ⟨text, settled⟩ := w.settled_of_not_failed wet (handsOff w List.mem_cons_self)
      (by simp [completed])
    have goesOn : w.decisions.quits = false :=
      w.decisions.ended_eq_completed_iff.mp (settled.ended.symm.trans completed)
    have rest := inductionHypothesis further fun x member =>
      handsOff x (List.mem_cons_of_mem _ member)
    rw [settled.answers] at rest
    rw [List.cons_append, List.map_cons, Answers.replay]
    change (if w.decisions.quits then [w.decisions] else w.decisions :: _)[front.length + 1]? = _
    rw [goesOn]
    exact rest

/-- The file of a visit at the start and at the end of a run, for given decisions
on the patches that are proposed for its text. -/
structure Visit.Replayed (v : Visit r) (start final : Tree) (d : Decisions) (text : Text)
    (location : Location) (bytes : List UInt8) (mode : Nat) : Prop where
  /-- What the visit reads is what was there at the start. -/
  found : start.lookup v.path = some (location, .file bytes mode)
  readable : start.grants mode .read = true
  decoded : Text.decode bytes = .ok text
  read : readText v.before.tree v.path = .ok text
  /-- The visit quits if one of the decisions does. -/
  ended : v.ended = d.ended
  /-- Without accepted patches the file is not written at all. -/
  untouched : d.accepted = [] → v.after.tree = v.before.tree ∧
    v.after.written = v.before.written ∧ final.lookup v.path = some (location, .file bytes mode)
  /-- Otherwise it ends as its text with exactly these patches applied. -/
  rewritten : d.accepted ≠ [] → ∃ updated, Patch.apply text d.accepted = .ok updated ∧
    final.lookup v.path = some (location, .file (Text.encode updated) mode)

/-- A visit that settles among visits to other files. No visit before it has
changed its file, and none after it will. -/
theorem Follows.replayed {s u : Session} {front back : List (Visit r)} {v : Visit r}
    (follows : Follows s (front ++ v :: back) u) (wet : r.dry = false)
    (handsOff : ∀ w ∈ front ++ v :: back, w.suggestor.HandsOff) (linkFree : s.tree.LinkFree)
    (separate : ((front ++ v :: back).map Visit.path).Pairwise s.tree.Separate) {text : Text}
    (settled : v.SettledOn text) :
    ∃ location bytes mode, v.Replayed s.tree u.tree v.decisions text location bytes mode := by
  obtain ⟨before, _, after, _⟩ := follows.split
  obtain ⟨sameBefore, keptBefore⟩ :=
    before.frame wet (fun w member => handsOff w (List.mem_append_left _ member)) linkFree
  have freeBefore := sameBefore.linkFree linkFree
  obtain ⟨location, bytes, mode, found, granted, decoded, nothing, something⟩ :=
    settled.tree_eq freeBefore
  have there := Tree.entryAt_of_lookup freeBefore found
  obtain ⟨sameVisit, _⟩ := v.frame wet (handsOff v (by simp)) freeBefore
  obtain ⟨sameAfter, keptAfter⟩ :=
    after.frame wet (fun w member => handsOff w (by simp [member]))
      (sameVisit.linkFree freeBefore)
  obtain ⟨entry, first⟩ := sameBefore.symm.lookup found
  rw [List.map_append, List.map_cons, List.pairwise_append, List.pairwise_cons] at separate
  obtain ⟨_, ⟨later, _⟩, earlier⟩ := separate
  have start : s.tree.lookup v.path = some (location, .file bytes mode) := by
    have holds := keptBefore location fun w member =>
      (earlier w.path (List.mem_map_of_mem member) v.path List.mem_cons_self).symm
        location entry first
    rw [there] at holds
    exact sameBefore.symm.lookup_eq freeBefore found holds.symm
  have kept : u.tree.entryAt location = v.after.tree.entryAt location :=
    keptAfter location fun w member => (sameBefore.trans sameVisit).misses
      (later w.path (List.mem_map_of_mem member) location entry first)
  have same := (sameBefore.trans sameVisit).trans sameAfter
  rw [← sameBefore.grants] at granted
  refine ⟨location, bytes, mode, start, granted, decoded, settled.read, settled.ended, ?_, ?_⟩
  · intro none
    rw [nothing none, there] at kept
    exact ⟨nothing none, (settled.commits.nothing none).2, same.lookup_eq linkFree start kept⟩
  · intro some
    obtain ⟨updated, applied, put⟩ := something some
    rw [put, Tree.entryAt_put _ (Tree.ne_nil_of_file there), if_pos rfl] at kept
    exact ⟨updated, applied, same.lookup_eq linkFree start kept⟩

/-- The history of a run with one suggestor is its only pass. -/
theorem history_eq_visits {g : Suggestor} (only : r.suggestors = [g]) {s : Session}
    {paths : List Text} (listed : r.query.sortedPaths s.tree = .ok paths) :
    r.history s = r.visits g paths (s.say "searching...".toList) := by
  have again : r.query.sortedPaths (s.say "searching...".toList).tree = .ok paths := listed
  rw [history]
  split
  · simp only [only, passesVisits, ite_self, List.append_nil]
    exact passVisits_eq again
  · rename_i missing
    rw [Query.sortedPaths_of_missing (by simpa using missing) listed]
    rfl

/-- Where the query lists nothing because it fails, nothing is visited. -/
theorem history_eq_nil {g : Suggestor} (only : r.suggestors = [g]) {s : Session} {fault : Fault}
    (listed : r.query.sortedPaths s.tree = .error fault) : r.history s = [] := by
  have again : r.query.sortedPaths (s.say "searching...".toList).tree = .error fault := listed
  rw [history]
  split
  · simp only [only, passesVisits, passVisits, again, ite_self, List.append_nil]
  · rfl

/-- What a run does to the tree, by the decisions that its input holds. -/
structure Replays (r : Review) (s : Session) : Prop where
  /-- A visit that does not fail takes the decisions that replaying the patches of
  all visits from the start gives for it, and its file ends accordingly. -/
  settled : ∀ front v back, r.history s = front ++ v :: back →
    (∀ failure, v.ended ≠ .failed failure) → ∃ d text location bytes mode,
      (Answers.replay r.defaultYes ((r.history s).map Visit.patches) s.answers)[front.length]? =
        some d ∧
      v.Replayed s.tree (r.run s).1.tree d text location bytes mode
  /-- Files are visited in the order of the query, up to a visit that is not
  complete. Those that are not visited stay as they are. -/
  visited : ∀ paths, r.query.sortedPaths s.tree = .ok paths → ∃ rest,
    paths = (r.history s).map Visit.path ++ rest ∧
      (∀ path ∈ rest, (r.run s).1.tree.lookup path = s.tree.lookup path) ∧
      ((∀ v ∈ r.history s, v.ended = .completed) → rest = [])
  /-- The visit that quits is the last one. -/
  quitLast : ∀ front v back, r.history s = front ++ v :: back → v.ended = .quit → back = []
  /-- What the query does not list stays as it is. -/
  unlisted : ∀ location,
    (∀ paths, r.query.sortedPaths s.tree = .ok paths →
      ∀ path ∈ paths, s.tree.Misses path location) →
    (r.run s).1.tree.entryAt location = s.tree.entryAt location

/-- The paths that are visited are listed. -/
theorem path_listed {g : Suggestor} (only : r.suggestors = [g]) {s : Session} {v : Visit r}
    (member : v ∈ r.history s) :
    ∃ paths, r.query.sortedPaths s.tree = .ok paths ∧ v.path ∈ paths := by
  cases listed : r.query.sortedPaths s.tree with
  | error fault =>
    rw [history_eq_nil only listed] at member
    cases member
  | ok paths =>
    rw [history_eq_visits only listed] at member
    exact ⟨paths, rfl, (visits_paths g paths _).subset (List.mem_map_of_mem member)⟩

/-- The paths that are visited lead to different locations. -/
theorem history_separate {g : Suggestor} (only : r.suggestors = [g]) {s : Session}
    (formed : s.tree.WellFormed) (linkFree : s.tree.LinkFree) :
    ((r.history s).map Visit.path).Pairwise s.tree.Separate := by
  cases listed : r.query.sortedPaths s.tree with
  | error fault =>
    rw [history_eq_nil only listed]
    exact .nil
  | ok paths =>
    rw [history_eq_visits only listed]
    exact (Query.sortedPaths_separate formed linkFree listed).sublist
      (visits_paths g paths _).sublist

theorem handsOff_of_mem_history {g : Suggestor} (only : r.suggestors = [g])
    (handsOff : g.HandsOff) {s : Session} {v : Visit r} (member : v ∈ r.history s) :
    v.suggestor.HandsOff := by
  have held := suggestor_of_mem_history member
  rw [only, List.mem_singleton] at held
  exact held ▸ handsOff

/-- A run keeps the shape of a tree without links, and all entries to which none
of the visited paths leads. -/
theorem run_frame {g : Suggestor} (only : r.suggestors = [g]) (wet : r.dry = false)
    (handsOff : g.HandsOff) {s : Session} (linkFree : s.tree.LinkFree) :
    s.tree.SameShape (r.run s).1.tree ∧
      ∀ location, (∀ v ∈ r.history s, s.tree.Misses v.path location) →
        (r.run s).1.tree.entryAt location = s.tree.entryAt location := by
  obtain ⟨start, final, quiet, follows, ended⟩ := r.history_follows s
  rw [← quiet.tree] at linkFree
  have frame := follows.frame wet (fun v => handsOff_of_mem_history only handsOff) linkFree
  rw [quiet.tree, ← ended] at frame
  exact frame

/-- A visit of a run that does not fail is replayed. -/
theorem settled_replayed {g : Suggestor} (only : r.suggestors = [g]) (wet : r.dry = false)
    (handsOff : g.HandsOff) {s : Session} (formed : s.tree.WellFormed)
    (linkFree : s.tree.LinkFree) {front back : List (Visit r)} {v : Visit r}
    (whole : r.history s = front ++ v :: back) (holds : ∀ failure, v.ended ≠ .failed failure) :
    ∃ d text location bytes mode,
      (Answers.replay r.defaultYes ((r.history s).map Visit.patches) s.answers)[front.length]? =
        some d ∧
      v.Replayed s.tree (r.run s).1.tree d text location bytes mode := by
  have hands : ∀ v ∈ r.history s, v.suggestor.HandsOff := fun v =>
    handsOff_of_mem_history only handsOff
  have separate := history_separate only formed linkFree
  obtain ⟨start, final, quiet, follows, ended⟩ := r.history_follows s
  rw [← quiet.tree] at linkFree separate
  rw [whole] at follows hands separate ⊢
  obtain ⟨text, settled⟩ := v.settled_of_not_failed wet (hands v (by simp)) holds
  obtain ⟨location, bytes, mode, replayed⟩ := follows.replayed wet hands linkFree separate settled
  rw [quiet.tree, ← ended] at replayed
  refine ⟨v.decisions, text, location, bytes, mode, ?_, replayed⟩
  rw [← quiet.answers]
  exact follows.replay wet fun w member => hands w (List.mem_append_left _ member)

/-- The files that a run has not reached stay as they are. There are none if all
visits are complete. -/
theorem unvisited_unchanged {g : Suggestor} (only : r.suggestors = [g]) (wet : r.dry = false)
    (handsOff : g.HandsOff) {s : Session} (formed : s.tree.WellFormed)
    (linkFree : s.tree.LinkFree) {paths : List Text}
    (listed : r.query.sortedPaths s.tree = .ok paths) :
    ∃ rest, paths = (r.history s).map Visit.path ++ rest ∧
      (∀ path ∈ rest, (r.run s).1.tree.lookup path = s.tree.lookup path) ∧
      ((∀ v ∈ r.history s, v.ended = .completed) → rest = []) := by
  obtain ⟨same, others⟩ := run_frame only wet handsOff linkFree
  have separate := Query.sortedPaths_separate formed linkFree listed
  obtain ⟨rest, whole⟩ := visits_paths (r := r) g paths (s.say "searching...".toList)
  rw [← history_eq_visits only listed] at whole
  refine ⟨rest, whole.symm, ?_, ?_⟩
  · intro path unvisited
    rw [← whole, List.pairwise_append] at separate
    apply same.lookup_congr linkFree
    intro location entry found
    apply others
    intro v member
    have apart := separate.2.2 v.path (List.mem_map_of_mem member) path unvisited
    exact apart.symm location entry found
  · intro completed
    rw [history_eq_visits only listed] at completed whole
    rw [visits_paths_of_completed completed] at whole
    exact List.append_right_eq_self.mp whole

/-- A run with one suggestor does what its input says. -/
theorem decisions_replayed {g : Suggestor} (only : r.suggestors = [g]) (wet : r.dry = false)
    (handsOff : g.HandsOff) {s : Session} (formed : s.tree.WellFormed)
    (linkFree : s.tree.LinkFree) : Replays r s := by
  refine ⟨?_, ?_, ?_, ?_⟩
  · intro front v back whole holds
    exact settled_replayed only wet handsOff formed linkFree whole holds
  · intro paths listed
    exact unvisited_unchanged only wet handsOff formed linkFree listed
  · intro front v back whole quit
    obtain ⟨start, final, _, follows, _⟩ := r.history_follows s
    rw [whole] at follows
    exact follows.split.2.2.2 (by simp [quit])
  · intro location unlisted
    apply (run_frame only wet handsOff linkFree).2
    intro v member
    obtain ⟨paths, listed, among⟩ := path_listed only member
    exact unlisted paths listed v.path among

/-- One pass over all files. -/
def digitPass : Review where
  query := .inDirectory ['.'] .all true false []
  suggestors := [.twoDigits]

/-- Three files with two characters each. The input rejects the first patch, takes
the next two and quits. -/
def quittingSession : Session where
  tree := { entries := [([['c']], .file [49, 48] 0o644), ([['b']], .file [49, 48] 0o755),
    ([['a']], .file [49, 48] 0o600)] }
  console := { input := [.text ['n', '\n'], .text ['y', '\n'], .text ['y', '\n'],
    .text ['q', '\n']] }

/-- One patch is committed to the first file, and one to the second file, where
the input quits. -/
theorem quitting_decisions_replayed :
    (digitPass.suggestors = [.twoDigits] ∧ digitPass.dry = false ∧
      Suggestor.twoDigits.HandsOff ∧ quittingSession.tree.WellFormed ∧
      quittingSession.tree.LinkFree) ∧
    (∃ v ∈ digitPass.history quittingSession, v.path = ['.', '/', 'b'] ∧ v.ended = .quit) ∧
    Replays digitPass quittingSession := by
  have formed : quittingSession.tree.WellFormed := by decide
  have linkFree : quittingSession.tree.LinkFree := by decide
  have unsorted : digitPass.query.paths quittingSession.tree =
      .ok [['.', '/', 'c'], ['.', '/', 'b'], ['.', '/', 'a']] := rfl
  have listed : digitPass.query.sortedPaths quittingSession.tree =
      .ok [['.', '/', 'a'], ['.', '/', 'b'], ['.', '/', 'c']] := by
    rw [Query.sortedPaths, unsorted]
    simp [Except.map, List.mergeSort, Text.precedes]
  have found : (digitPass.visits .twoDigits [['.', '/', 'a'], ['.', '/', 'b'], ['.', '/', 'c']]
      (quittingSession.say "searching...".toList)).any
        (fun v => v.path = ['.', '/', 'b'] ∧ v.ended = .quit) = true := by
    decide +kernel
  rw [← history_eq_visits rfl listed] at found
  obtain ⟨v, member, seen⟩ := List.any_eq_true.mp found
  exact ⟨⟨rfl, rfl, Suggestor.twoDigits_handsOff, formed, linkFree⟩,
    ⟨v, member, of_decide_eq_true seen⟩,
    decisions_replayed rfl rfl Suggestor.twoDigits_handsOff formed linkFree⟩

end Emend.Review
