import Emend.Document.Scalar
import Emend.Text.Lines

/-!
# Reading documents of settings

A document is a list of items: headers that open a table or a new element of an array of tables, and
pairs of a key and a value. Each item is added to what was read before it, and the first that is
refused ends the reading. Keys may be dotted.

A table is opened by one header only, and a pair does not reach into a table that a header opened or
that was written in braces, nor into an array.
-/

namespace Emend.Document

/-- A dotted key. -/
abbrev Key := List Text

/-- The entries of a table, in order. -/
abbrev Entries := List (Text × Value)

/-- An item of a document. -/
inductive Item where
  | pair (key : Key) (value : Value)
  | table (key : Key)
  /-- A new element of an array of tables. -/
  | element (key : Key)

/-- The characters of keys without quotes. -/
def isBare (c : Char) : Bool :=
  Text.isAsciiLetter c || Text.isAsciiDigit c || c = '-' || c = '_'

/-- A text without the blanks it starts with. -/
def skipGap (t : Text) : Text := t.dropWhile isGap

/-- One part of a key. -/
def keyPart (t : Text) : Option (Text × Text) :=
  match t with
  | [] => none
  | c :: rest =>
    if isBare c then some (t.takeWhile isBare, t.dropWhile isBare)
    else if c = '"' then basic rest
    else if c = '\'' then verbatim rest
    else none

/-- A key with at most so many parts, and the blanks after it. -/
def keyWithin : Nat → Text → Option (Key × Text)
  | 0, _ => none
  | parts + 1, t => do
    let (first, t) ← keyPart t
    match skipGap t with
    | '.' :: rest =>
      let (more, rest) ← keyWithin parts (skipGap rest)
      some (first :: more, rest)
    | rest => some ([first], rest)

/-- A key. -/
def key (t : Text) : Option (Key × Text) := keyWithin (t.length + 1) t

/-- A text without the blanks, line ends and comments it starts with. -/
def skipLines : Bool → Text → Option Text
  | _, [] => some []
  | true, c :: rest =>
    if c = '\n' then skipLines false rest
    else if isControl c then none
    else skipLines true rest
  | false, c :: rest =>
    if isGap c || c = '\n' then skipLines false rest
    else if c = '#' then skipLines true rest
    else some (c :: rest)

/-- Change the table that a key leads to. Tables on the way that are missing are made; the last
element of an array of tables stands for the array if `throughArrays` is set. -/
def changeAt (throughArrays : Bool) (change : Entries → Option Entries) :
    Key → Entries → Option Entries
  | [], entries => change entries
  | k :: rest, entries =>
    match Value.lookup k entries with
    | none =>
      (changeAt throughArrays change rest []).map fun inner => entries ++ [(k, .table inner)]
    | some (.table inner) =>
      (changeAt throughArrays change rest inner).map fun inner => put k (.table inner) entries
    | some (.array items) =>
      match throughArrays, items.getLast? with
      | true, some (.table inner) =>
        (changeAt throughArrays change rest inner).map fun inner =>
          put k (.array (items.dropLast ++ [.table inner])) entries
      | _, _ => none
    | some _ => none
where
  /-- Replace the value of a key that is there. -/
  put (k : Text) (v : Value) (entries : Entries) : Entries :=
    entries.map fun (name, old) => if name = k then (name, v) else (name, old)

/-- Add an entry whose key is not there yet. -/
def addNew (k : Text) (v : Value) (entries : Entries) : Option Entries :=
  if (Value.lookup k entries).isSome then none else some (entries ++ [(k, v)])

/-- Whether a value was written in brackets or braces. -/
def isClosed : Value → Bool
  | .array _ => true
  | .table _ => true
  | _ => false

/-- Whether a key is one of the given keys or leads into one. -/
def leadsInto (keys : List Key) (k : Key) : Bool := keys.any fun outer => outer.isPrefixOf k

/-- Add a pair to a table in braces. -/
def addInline (closed : List Key) (k : Key) (v : Value) (entries : Entries) : Option Entries :=
  if leadsInto closed k then none
  else
    match k.getLast? with
    | some last => changeAt false (addNew last v) k.dropLast entries
    | none => none

section

variable (value : Text → Except Refusal (Value × Text))

/-- A pair. -/
def pair (t : Text) : Except Refusal ((Key × Value) × Text) := do
  let (k, t) ← require (key t)
  match t with
  | '=' :: rest =>
    let (v, rest) ← value (skipGap rest)
    .ok ((k, v), rest)
  | _ => .error .malformed

/-- The items of an array after its bracket, up to and including its closing bracket. -/
def arrayItems : Nat → Text → Except Refusal (List Value × Text)
  | 0, _ => .error .malformed
  | rounds + 1, t => do
    match ← require (skipLines false t) with
    | ']' :: rest => .ok ([], rest)
    | t =>
      let (first, t) ← value t
      match ← require (skipLines false t) with
      | ']' :: rest => .ok ([first], rest)
      | ',' :: rest =>
        let (more, rest) ← arrayItems rounds rest
        .ok (first :: more, rest)
      | _ => .error .malformed

/-- The entries of a table in braces after its first brace, up to and including its closing one. -/
def inlineEntries : Nat → List Key → Entries → Text → Except Refusal (Entries × Text)
  | 0, _, _, _ => .error .malformed
  | rounds + 1, closed, entries, t => do
    let ((k, v), t) ← pair value t
    let entries ← require (addInline closed k v entries)
    match skipGap t with
    | '\x7d' :: rest => .ok (entries, rest)
    | ',' :: rest =>
      inlineEntries rounds (if isClosed v then k :: closed else closed) entries (skipGap rest)
    | _ => .error .malformed

end

/-- A value without brackets or braces. -/
def scalar (t : Text) : Except Refusal (Value × Text) :=
  match t with
  | [] => .error .malformed
  | c :: _ =>
    if c = '"' || c = '\'' then require ((string t).map fun (s, rest) => (.text s, rest))
    else if "true".toList.isPrefixOf t then .ok (.bool true, t.drop 4)
    else if "false".toList.isPrefixOf t then .ok (.bool false, t.drop 5)
    else
      match Moment.read t with
      | some (moment, rest) => (require moment).map fun moment => (moment, rest)
      | none => number t

/-- A value with at most so much nesting. -/
def valueWithin : Nat → Text → Except Refusal (Value × Text)
  | 0, _ => .error .malformed
  | depth + 1, t =>
    match t with
    | '[' :: rest =>
      (arrayItems (valueWithin depth) (rest.length + 1) rest).map fun (items, rest) =>
        (.array items, rest)
    | '\x7b' :: rest =>
      match skipGap rest with
      | '\x7d' :: rest => .ok (.table [], rest)
      | rest =>
        (inlineEntries (valueWithin depth) (rest.length + 1) [] [] rest).map fun (entries, rest) =>
          (.table entries, rest)
    | _ => scalar t

/-- A value. -/
def value (t : Text) : Except Refusal (Value × Text) := valueWithin (t.length + 1) t

/-- The rest after the end of a line, which may hold a comment. -/
def lineEnd (t : Text) : Option Text :=
  match skipGap t with
  | [] => some []
  | '\n' :: rest => some rest
  | '#' :: rest =>
    let comment := rest.takeWhile (· ≠ '\n')
    if comment.any isControl then none else some ((rest.dropWhile (· ≠ '\n')).drop 1)
  | _ => none

/-- One item, after the blanks before it. -/
def item (t : Text) : Except Refusal (Item × Text) :=
  match t with
  | '[' :: '[' :: rest => do
    let (k, rest) ← require (key (skipGap rest))
    match rest with
    | ']' :: ']' :: rest => .ok (.element k, rest)
    | _ => .error .malformed
  | '[' :: rest => do
    let (k, rest) ← require (key (skipGap rest))
    match rest with
    | ']' :: rest => .ok (.table k, rest)
    | _ => .error .malformed
  | _ => (pair value t).map fun ((k, v), rest) => (.pair k v, rest)

/-- A document while its items are put together. -/
structure Draft where
  entries : Entries := []
  /-- The table that pairs go to. -/
  header : Key := []
  /-- The tables that can no longer be opened. -/
  opened : List Key := []
  /-- The tables that cannot be opened from the next header on. -/
  pending : List Key := []
  /-- The values written in brackets or braces. -/
  closed : List Key := []

namespace Draft

/-- Open a table. -/
def openTable (d : Draft) (k : Key) : Option Draft := do
  let opened := d.pending ++ d.opened
  if opened.contains k || leadsInto d.closed k then none
  else
    let entries ← changeAt true some k d.entries
    some { d with entries, header := k, opened := k :: opened, pending := [] }

/-- Add an empty table to the array of tables under a key. -/
def addElement (last : Text) (entries : Entries) : Option Entries :=
  match Value.lookup last entries with
  | none => some (entries ++ [(last, .array [.table []])])
  | some (.array items) =>
    some (changeAt.put last (.array (items ++ [.table []])) entries)
  | some _ => none

/-- Open a new element of an array of tables. What was opened in the element before is forgotten. -/
def openElement (d : Draft) (k : Key) : Option Draft := do
  if leadsInto d.closed k then none
  else
    let last ← k.getLast?
    let entries ← changeAt true (addElement last) k.dropLast d.entries
    let outside (keys : List Key) : List Key := keys.filter fun inner => !k.isPrefixOf inner
    some { d with
      entries
      header := k
      opened := k :: outside (d.pending ++ d.opened)
      pending := []
      closed := outside d.closed }

/-- The tables that a dotted key leads through, from the outermost. -/
def through (header k : Key) : List Key :=
  (List.range (k.length - 1)).map fun n => header ++ k.take (n + 1)

/-- Add a pair. -/
def addPair (d : Draft) (k : Key) (v : Value) : Option Draft := do
  let way := through d.header k
  let full := d.header ++ k
  if way.any d.opened.contains || leadsInto d.closed full.dropLast then none
  else
    let last ← k.getLast?
    let entries ← changeAt true (addNew last v) full.dropLast d.entries
    some { d with
      entries
      pending := way ++ d.pending
      closed := if isClosed v then full :: d.closed else d.closed }

/-- Add an item. -/
def add (d : Draft) : Item → Option Draft
  | .pair k v => d.addPair k v
  | .table k => d.openTable k
  | .element k => d.openElement k

end Draft

/-- Add the items of a text of at most so many lines to a document. -/
def fill : Nat → Draft → Text → Except Refusal Draft
  | 0, _, _ => .error .malformed
  | lines + 1, d, t =>
    match skipGap t with
    | [] => .ok d
    | '\n' :: rest => fill lines d rest
    | '#' :: rest => do fill lines d (← require (lineEnd ('#' :: rest)))
    | t => do
      let (first, rest) ← item t
      let d ← require (d.add first)
      let rest ← require (lineEnd rest)
      fill lines d rest

/-- The entries of a document, if it is well formed. -/
def read (t : Text) : Except Refusal Entries := do
  let t := Text.joinLineEnds t
  let draft ← fill (t.length + 1) {} t
  .ok draft.entries

end Emend.Document
