import Emend.Pattern

/-!
# Matching

A `Spot` is a place in a text with what the groups have matched on the way. Matching a pattern at a
spot tries its ways to match in order and hands the spot after each to a continuation, until the
continuation accepts one. So "the rest of the pattern" is always part of the question, and going
back to another way is what happens when the continuation refuses.

A repetition counts its rounds. The rounds it must make are made whatever they consume; a further
round is made only if it starts elsewhere than the last such round, so a body that consumes nothing
cannot repeat for ever. Every further round starts later in the text than the one before, which
bounds their number by the characters that are left.

`Pattern.findAll` lists the matches of a text from left to right. The next one is sought where the
last one ended, and after an empty match it must not be empty at that place again.
-/

namespace Emend

/-- A place in a text: what precedes it, last character first, what follows it, and its offset; and
the ranges that the groups have matched, the latest first. -/
structure Spot where
  before : Text
  rest : Text
  offset : Nat
  captures : List (Nat × Nat × Nat)
  deriving DecidableEq, Repr

namespace Spot

/-- The start of a text. -/
def start (t : Text) : Spot := ⟨[], t, 0, []⟩

/-- One character on. -/
def next (s : Spot) : Spot :=
  match s.rest with
  | [] => s
  | c :: rest => { s with before := c :: s.before, rest, offset := s.offset + 1 }

/-- Some characters on; the end of the text is not passed. -/
def forward (s : Spot) : Nat → Spot
  | 0 => s
  | n + 1 => s.next.forward n

/-- Some characters back, if there are as many. -/
def back (s : Spot) (n : Nat) : Option Spot :=
  if n ≤ s.before.length then
    some { s with
      before := s.before.drop n
      rest := (s.before.take n).reverse ++ s.rest
      offset := s.offset - n }
  else none

/-- The range that a group matched last. -/
def captured (s : Spot) (index : Nat) : Option (Nat × Nat) := s.captures.lookup index

/-- A group has matched from an offset up to this place. -/
def capture (s : Spot) (index start : Nat) : Spot :=
  { s with captures := (index, start, s.offset) :: s.captures }

/-- Whether the character before is of a kind; there may be none. -/
def wordBefore (s : Spot) (ascii : Bool) : Bool := s.before.head?.any (CharKind.word.holds ascii)

/-- Whether the character after is of a kind; there may be none. -/
def wordAfter (s : Spot) (ascii : Bool) : Bool := s.rest.head?.any (CharKind.word.holds ascii)

end Spot

/-- Whether a place is where an anchor holds. An empty text has no word edges, nor the lack of
them. -/
def Anchor.holds (s : Spot) : Anchor → Bool
  | .textStart => s.before.isEmpty
  | .lineStart => s.before.isEmpty || s.before.head? = some '\n'
  | .textEnd => s.rest.isEmpty
  | .lastLineEnd => s.rest.isEmpty || s.rest = ['\n']
  | .lineEnd => s.rest.isEmpty || s.rest.head? = some '\n'
  | .wordEdge ascii => s.wordBefore ascii != s.wordAfter ascii
  | .noWordEdge ascii =>
    !(s.before.isEmpty && s.rest.isEmpty) && s.wordBefore ascii == s.wordAfter ascii

/-- Whether two characters of a repeated part are the same. -/
def Casing.agrees (casing : Casing) (c d : Char) : Bool :=
  match casing with
  | .exact => c = d
  | .folded => Text.lowerChar c = Text.lowerChar d
  | .asciiFolded => Text.lowerAscii c = Text.lowerAscii d

/-- Whether a text starts with a part. -/
def Casing.startsWith (casing : Casing) : Text → Text → Bool
  | [], _ => true
  | _ :: _, [] => false
  | c :: part, d :: rest => casing.agrees c d && casing.startsWith part rest

/-- What becomes of a spot: the spot that was accepted, if one was. -/
abbrev Trial := Spot → Option Spot

namespace Pattern

/-- Whether another round is allowed after `count` rounds. -/
def allows (most : Option Nat) (count : Nat) : Bool :=
  match most with
  | none => true
  | some most => count < most

/-- Rounds of a body, as many as possible first. `last` is where the last round beyond the least
number started, and `fuel` bounds the rounds. -/
def roundsMost (body : Spot → Trial → Option Spot) (least : Nat) (most : Option Nat)
    (accept : Trial) : Nat → Nat → Option Nat → Spot → Option Spot
  | 0, _, _, _ => none
  | fuel + 1, count, last, s =>
    if count < least then body s (roundsMost body least most accept fuel (count + 1) last)
    else if allows most count && last != some s.offset then
      match body s (roundsMost body least most accept fuel (count + 1) (some s.offset)) with
      | some found => some found
      | none => accept s
    else accept s

/-- Rounds of a body, as few as possible first. -/
def roundsFewest (body : Spot → Trial → Option Spot) (least : Nat) (most : Option Nat)
    (accept : Trial) : Nat → Nat → Option Nat → Spot → Option Spot
  | 0, _, _, _ => none
  | fuel + 1, count, last, s =>
    if count < least then body s (roundsFewest body least most accept fuel (count + 1) last)
    else match accept s with
      | some found => some found
      | none =>
        if allows most count && last != some s.offset then
          body s (roundsFewest body least most accept fuel (count + 1) (some s.offset))
        else none

/-- Rounds of a body, each in its first way to match, as many as possible. -/
def roundsAll (body : Spot → Trial → Option Spot) (least : Nat) (most : Option Nat) :
    Nat → Nat → Option Nat → Spot → Option Spot
  | 0, _, _, _ => none
  | fuel + 1, count, last, s =>
    if count < least then
      match body s some with
      | some s' => roundsAll body least most fuel (count + 1) last s'
      | none => none
    else if allows most count && last != some s.offset then
      match body s some with
      | some s' => roundsAll body least most fuel (count + 1) (some s.offset) s'
      | none => some s
    else some s

/-- The spot accepted after a match of the pattern at a spot of `text`. -/
def run (text : Text) : Pattern → Spot → Trial → Option Spot
  | empty, s, accept => accept s
  | one test, s, accept =>
    match s.rest with
    | [] => none
    | c :: _ => if test.holds c then accept s.next else none
  | place anchor, s, accept => if anchor.holds s then accept s else none
  | seq first second, s, accept => run text first s fun s' => run text second s' accept
  | either first second, s, accept =>
    match run text first s accept with
    | some found => some found
    | none => run text second s accept
  | group index body, s, accept => run text body s fun s' => accept (s'.capture index s.offset)
  | same index casing, s, accept =>
    match s.captured index with
    | none => none
    | some (start, stop) =>
      let part := text.slice start stop
      if casing.startsWith part s.rest then accept (s.forward part.length) else none
  | look back negated body, s, accept =>
    match (s.back back).bind fun s' => run text body s' some with
    | some found => if negated then none else accept { s with captures := found.captures }
    | none => if negated then accept s else none
  | atomic body, s, accept =>
    match run text body s some with
    | some s' => accept s'
    | none => none
  | ifGroup index yes no, s, accept =>
    if (s.captured index).isSome then run text yes s accept else run text no s accept
  | times least most effort body, s, accept =>
    let fuel := least + s.rest.length + 3
    let body := fun s accept => run text body s accept
    match effort with
    | .most => roundsMost body least most accept fuel 0 none s
    | .fewest => roundsFewest body least most accept fuel 0 none s
    | .all =>
      match roundsAll body least most fuel 0 none s with
      | some s' => accept s'
      | none => none

end Pattern

/-- A match: its range, and the ranges of the groups that took part. -/
structure Match where
  start : Nat
  stop : Nat
  captures : List (Nat × Nat × Nat)
  deriving DecidableEq, Repr

namespace Pattern

/-- The first match from a spot on, where `rest` is what follows the spot. An empty match at the
spot itself counts only if `mayBeEmpty` says so. -/
def search (text : Text) (p : Pattern) : Text → Spot → Bool → Option (Match × Spot)
  | rest, s, mayBeEmpty =>
    let accept : Trial := fun s' =>
      if mayBeEmpty || s'.offset != s.offset then some s' else none
    match p.run text { s with captures := [] } accept with
    | some s' => some (⟨s.offset, s'.offset, s'.captures⟩, s')
    | none =>
      match rest with
      | [] => none
      | _ :: rest => search text p rest s.next true

/-- The matches from a spot on. Every match starts later than the one before or is longer than the
empty one there, so twice the length of the text bounds their number. -/
def matchesFrom (text : Text) (p : Pattern) : Nat → Spot → Bool → List Match
  | 0, _, _ => []
  | fuel + 1, s, mayBeEmpty =>
    match p.search text s.rest s mayBeEmpty with
    | none => []
    | some (found, s') => found :: matchesFrom text p fuel s' (found.start != found.stop)

/-- All matches in a text, from left to right. -/
def findAll (p : Pattern) (text : Text) : List Match :=
  matchesFrom text p (2 * text.length + 2) (Spot.start text) true

end Pattern

/-- A group is asked for by its number or by its name. -/
inductive GroupKey where
  | index (n : Int)
  | name (t : Text)
  deriving DecidableEq, Repr

namespace Expression

/-- The number of a group, if the expression has it; the whole match is group zero. -/
def group? (e : Expression) : GroupKey → Option Nat
  | .index n => if 0 ≤ n ∧ n ≤ e.groups then some n.toNat else none
  | .name t => e.names.lookup t

/-- All matches in a text. -/
def findAll (e : Expression) (text : Text) : List Match := e.pattern.findAll text

end Expression

/-- The range of a group in a match, if it took part. -/
def Match.span (m : Match) (group : Nat) : Option (Nat × Nat) :=
  if group = 0 then some (m.start, m.stop) else m.captures.lookup group

end Emend
