import Emend.Fault
import Emend.Pattern
import Emend.Text.Identifier
import Emend.Text.Letter

/-!
# Reading patterns

The written form of patterns. A pattern is read symbol by symbol, where a symbol is one character or
a backslash with the character after it, and always one symbol ahead: a backslash that ends the
pattern is refused as soon as it is the next symbol, before anything is said about the symbol under
way.

Reading keeps the numbers, names and widths of the groups, because a reference may name only a group
that is closed and a look back needs a body of one width. What is refused is refused with the place
in the pattern; only a look back of varying width, which is found after all else, has none.
-/

namespace Emend

/-- What a pattern, or a part of it, sets aside or asks for. -/
structure PatternFlags where
  ignoreCase : Bool := false
  multiline : Bool := false
  dotAll : Bool := false
  verbose : Bool := false
  ascii : Bool := false
  unicode : Bool := false
  deriving DecidableEq, Repr

namespace PatternFlags

/-- The flags of a list of letters; other letters are passed over. -/
def ofLetters (letters : Text) : PatternFlags :=
  letters.foldl (fun flags letter => match letter with
    | 'i' => { flags with ignoreCase := true }
    | 'm' => { flags with multiline := true }
    | 's' => { flags with dotAll := true }
    | 'x' => { flags with verbose := true }
    | 'a' => { flags with ascii := true }
    | 'u' => { flags with unicode := true }
    | _ => flags) {}

/-- The flags of either. -/
def union (a b : PatternFlags) : PatternFlags :=
  { ignoreCase := a.ignoreCase || b.ignoreCase
    multiline := a.multiline || b.multiline
    dotAll := a.dotAll || b.dotAll
    verbose := a.verbose || b.verbose
    ascii := a.ascii || b.ascii
    unicode := a.unicode || b.unicode }

/-- The flags inside a group that turns some on and some off. An alphabet that is turned on takes
the place of the other. -/
def within (flags on off : PatternFlags) : PatternFlags :=
  { ignoreCase := (flags.ignoreCase || on.ignoreCase) && !off.ignoreCase
    multiline := (flags.multiline || on.multiline) && !off.multiline
    dotAll := (flags.dotAll || on.dotAll) && !off.dotAll
    verbose := (flags.verbose || on.verbose) && !off.verbose
    ascii := on.ascii || (flags.ascii && !on.unicode)
    unicode := on.unicode || (flags.unicode && !on.ascii) }

/-- How characters compare under the flags. -/
def casing (flags : PatternFlags) : Casing :=
  if flags.ignoreCase then if flags.ascii then .asciiFolded else .folded else .exact

end PatternFlags

namespace PatternReader

/-- The next symbol: a character, or one after a backslash. -/
inductive Symbol where
  | plain (c : Char)
  | escaped (c : Char)
  deriving DecidableEq, Repr

/-- The characters of a symbol. -/
def Symbol.text : Symbol → Text
  | .plain c => [c]
  | .escaped c => ['\\', c]

/-- A state of reading: the whole pattern, the next symbol with its place and what follows it, and
what is known of flags and groups. `widths` lists the least and greatest width of the groups from
one on, with none for a group still open. -/
structure State where
  whole : Text
  symbol : Option Symbol
  place : Nat
  rest : Text
  flags : PatternFlags
  widths : List (Option (Nat × Nat)) := []
  names : List (Text × Nat) := []
  /-- The number of groups when the outermost look back began. -/
  lookBack : Option Nat := none
  /-- Groups that conditions ask about, with the place of the question. -/
  asked : List (Nat × Nat) := []
  /-- Whether some look back has a body of varying width. -/
  varying : Bool := false

/-- A step of reading. -/
abbrev Reading := StateT State (Except Fault)

/-- The refusal of a pattern, with the place where it fails. A pattern of several lines also gets
line and column, from one. -/
def refusal (whole : Text) (message : String) (place : Nat) : Fault :=
  let before := whole.take place
  let lines := before.count '\n' + 1
  let column := (before.reverse.takeWhile (· ≠ '\n')).length + 1
  let tail :=
    if whole.contains '\n' then
      " (line " ++ Text.ofNat lines ++ ", column " ++ Text.ofNat column ++ ")"
    else ""
  .badPattern (message ++ " at position " ++ Text.ofNat place ++ tail)

/-- Refuse the pattern `back` characters before the next symbol. -/
def refuse {α : Type} (message : String) (back : Nat) : Reading α := do
  let s ← get
  throw (refusal s.whole message (s.place - back))

/-- Step over the next symbol to the one after it. -/
def advance : Reading Unit := do
  let s ← get
  let place := match s.symbol with
    | none => s.place
    | some symbol => s.place + symbol.text.length
  match s.rest with
  | [] => set { s with symbol := none, place }
  | '\\' :: c :: rest => set { s with symbol := some (.escaped c), place, rest }
  | ['\\'] => throw (refusal s.whole "bad escape (end of pattern)" (s.whole.length - 1))
  | c :: rest => set { s with symbol := some (.plain c), place, rest }

/-- The next symbol. -/
def peek : Reading (Option Symbol) := do return (← get).symbol

/-- The place of the next symbol. -/
def here : Reading Nat := do return (← get).place

/-- Take the next symbol. -/
def take : Reading (Option Symbol) := do
  let symbol ← peek
  advance
  return symbol

/-- Take the next symbol if it is the given character. -/
def accept (c : Char) : Reading Bool := do
  if (← peek) = some (.plain c) then
    advance
    return true
  else return false

/-- Take up to `count` characters of a class. -/
def takeSome (isMember : Char → Bool) : Nat → Reading Text
  | 0 => return []
  | count + 1 => do
    match ← peek with
    | some (.plain c) =>
      if isMember c then
        advance
        return c :: (← takeSome isMember count)
      else return []
    | _ => return []

/-- Take everything up to a closing character; `what` names it in refusals. The count bounds the
number of symbols. -/
def takeUntil (close : Char) (what : String) : Nat → Text → Reading Text
  | 0, found => return found
  | count + 1, found => do
    let symbol ← take
    match symbol with
    | none =>
      if found.isEmpty then refuse ("missing " ++ what) 0
      else refuse ("missing " ++ String.ofList [close] ++ ", unterminated name") found.length
    | some symbol =>
      if symbol = .plain close then
        if found.isEmpty then refuse ("missing " ++ what) 1 else return found
      else takeUntil close what count (found ++ symbol.text)

/-- The name of a group, which must be an identifier. -/
def groupName (close : Char) : Reading Text := do
  let name ← takeUntil close "group name" ((← get).rest.length + 2) []
  if Text.isIdentifier name then return name
  else refuse ("bad character in group name " ++ String.ofList name.quoted) (name.length + 1)

/-- The greatest width that is told apart. -/
def widthLimit : Nat := Nat.pow 2 64

/-- The least number of rounds that is too large. -/
def roundLimit : Nat := 4294967295

/-- A part that has been read: its pattern and the least and greatest width it can have. -/
structure Piece where
  pattern : Pattern
  low : Nat
  high : Nat

/-- What a quantifier after a part would mean. -/
inductive Repeatable where
  | yes
  | anchor
  | repeated
  deriving DecidableEq

/-- A piece with a say on whether it can be repeated. -/
abbrev Item := Piece × Repeatable

/-- A piece of width one. -/
def single (test : CharTest) : Piece := ⟨.one test, 1, 1⟩

/-- Pieces one after the other; the list is given last first. -/
def joined (items : List Item) : Piece :=
  ⟨.sequence (items.reverse.map (·.1.pattern)),
    min widthLimit (items.foldr (·.1.low + ·) 0), min widthLimit (items.foldr (·.1.high + ·) 0)⟩

/-- Pieces of which one is to fit. -/
def chosen : List Piece → Piece
  | [] => ⟨.empty, 0, 0⟩
  | first :: rest =>
    rest.foldl (fun all p => ⟨all.pattern, min all.low p.low, max all.high p.high⟩)
      { first with
        pattern := if rest.isEmpty then first.pattern
          else .firstOf ((first :: rest).map (·.pattern)) }

/-- A repeated piece. -/
def repeated (p : Piece) (least : Nat) (most : Option Nat) (effort : Effort) : Piece :=
  let high := match most with
    | none => if p.high = 0 then 0 else widthLimit
    | some most => p.high * most
  ⟨.times least most effort p.pattern, p.low * least, high⟩

/-- The test for one code point; a code point that no text holds matches nothing. -/
def codeTest (code : Nat) (casing : Casing) : CharTest :=
  if code.isValidChar then .char (Char.ofNat code) casing
  else .set [.code code] false .exact

/-- The code point that a simple escape stands for. -/
def simpleEscape? : Char → Option Nat
  | 'a' => some 7
  | 'f' => some 12
  | 'n' => some 10
  | 'r' => some 13
  | 't' => some 9
  | 'v' => some 11
  | '\\' => some 92
  | _ => none

/-- The kind of characters that an escape stands for, and whether it is the others. -/
def kindEscape? : Char → Option (CharKind × Bool)
  | 'd' => some (.digit, false)
  | 'D' => some (.digit, true)
  | 's' => some (.space, false)
  | 'S' => some (.space, true)
  | 'w' => some (.word, false)
  | 'W' => some (.word, true)
  | _ => none

/-- The place that an escape stands for. -/
def anchorEscape? (ascii : Bool) : Char → Option Anchor
  | 'A' => some .textStart
  | 'b' => some (.wordEdge ascii)
  | 'B' => some (.noWordEdge ascii)
  | 'Z' => some .textEnd
  | _ => none

/-- Refuse an escape whose characters have all been taken. -/
def badEscape {α : Type} (escape : Text) : Reading α :=
  refuse ("bad escape " ++ String.ofList escape) escape.length

/-- A code point written with a fixed number of hexadecimal digits. -/
def hexEscape (letter : Char) (count : Nat) : Reading Nat := do
  let digits ← takeSome (Text.isDigitOf 16) count
  let escape := '\\' :: letter :: digits
  if digits.length < count then
    refuse ("incomplete escape " ++ String.ofList escape) escape.length
  else
    let code := Text.number 16 digits
    if 0x10ffff < code then badEscape escape else return code

/-- A code point given by a name. No names are known. -/
def namedEscape : Reading Nat := do
  if ← accept '\x7b' then
    let name ← takeUntil '\x7d' "character name" ((← get).rest.length + 2) []
    refuse ("undefined character name " ++ String.ofList name.quoted) (name.length + 4)
  else refuse "missing \x7b" 0

/-- The value of an escape of octal digits, which may not exceed a byte. -/
def octalEscape (digits : Text) : Reading Nat := do
  let code := Text.number 8 digits
  if 0o377 < code then
    refuse ("octal escape value \\" ++ String.ofList digits ++ " outside of range 0-0o377")
      (digits.length + 1)
  else return code

/-- The escapes that mean the same inside and outside of a set. -/
def commonEscape (c : Char) : Reading Nat := do
  match c with
  | 'x' => hexEscape 'x' 2
  | 'u' => hexEscape 'u' 4
  | 'U' => hexEscape 'U' 8
  | 'N' => namedEscape
  | _ =>
    if Text.isAsciiLetter c then badEscape ['\\', c] else return c.toNat

/-- The member of a set that an escape stands for: a code point or a kind. -/
def setEscape (c : Char) (ascii : Bool) : Reading (Nat ⊕ SetItem) := do
  if c = 'b' then return .inl 8
  match simpleEscape? c, kindEscape? c with
  | some code, _ => return .inl code
  | none, some (kind, negated) => return .inr (.ofKind kind ascii negated)
  | none, none =>
    if Text.isDigitOf 8 c then
      let more ← takeSome (Text.isDigitOf 8) 2
      return .inl (← octalEscape (c :: more))
    else if Text.isAsciiDigit c then badEscape ['\\', c]
    else return .inl (← commonEscape c)

/-- The width of a closed group. -/
def closedWidth? (index : Nat) : Reading (Option (Nat × Nat)) := do
  return ((← get).widths[index - 1]?).join

/-- The number of groups so far, the whole match included. -/
def groupCount : Reading Nat := do return (← get).widths.length + 1

/-- Inside a look back, only groups that were closed before it may be asked about. -/
def checkLookBack (index : Nat) : Reading Unit := do
  match (← get).lookBack with
  | none => return ()
  | some count =>
    if (← closedWidth? index).isNone then refuse "cannot refer to an open group" 0
    if count ≤ index then
      refuse "cannot refer to group defined in the same lookbehind subpattern" 0

/-- A reference to a group; `back` is where a refusal points. -/
def reference (index back : Nat) (scope : PatternFlags) : Reading Piece := do
  match ← closedWidth? index with
  | none => refuse "cannot refer to an open group" back
  | some (low, high) =>
    checkLookBack index
    return ⟨.same index scope.casing, low, high⟩

/-- The escape of a digit that is not zero: three octal digits or a reference. -/
def digitEscape (c : Char) (scope : PatternFlags) : Reading Piece := do
  let more ← takeSome Text.isAsciiDigit 1
  let third ←
    if (c :: more).all (Text.isDigitOf 8) && more.length = 1 then takeSome (Text.isDigitOf 8) 1
    else pure []
  let digits := c :: more ++ third
  if third.length = 1 then return single (codeTest (← octalEscape digits) scope.casing)
  let index := Text.number 10 digits
  if index < (← groupCount) then reference index (digits.length + 1) scope
  else refuse ("invalid group reference " ++ Text.ofNat index) digits.length

/-- What an escape outside of a set stands for. -/
def escape (c : Char) (scope : PatternFlags) : Reading Item := do
  match anchorEscape? scope.ascii c, kindEscape? c, simpleEscape? c with
  | some anchor, _, _ => return (⟨.place anchor, 0, 0⟩, .anchor)
  | none, some (kind, negated), _ =>
    return (single (.set [.ofKind kind scope.ascii negated] false scope.casing), .yes)
  | none, none, some code => return (single (codeTest code scope.casing), .yes)
  | none, none, none =>
    if c = '0' then
      let more ← takeSome (Text.isDigitOf 8) 2
      return (single (codeTest (Text.number 8 (c :: more)) scope.casing), .yes)
    else if Text.isAsciiDigit c then return (← digitEscape c scope, .yes)
    else return (single (codeTest (← commonEscape c) scope.casing), .yes)

/-- One member of a set that the symbol starts. -/
def setMember (symbol : Symbol) (scope : PatternFlags) : Reading (Nat ⊕ SetItem) :=
  match symbol with
  | .plain c => return .inl c.toNat
  | .escaped c => setEscape c scope.ascii

/-- The item of a member. -/
def memberItem : Nat ⊕ SetItem → SetItem
  | .inl code => .code code
  | .inr item => item

/-- The members of a set up to its closing bracket; `start` is the place of the opening one, `found`
the members so far, last first, and the count bounds the symbols. -/
def setItems (scope : PatternFlags) (start : Nat) : Nat → List SetItem → Reading (List SetItem)
  | 0, found => return found
  | count + 1, found => do
    let unterminated {α : Type} : Reading α := do
      refuse "unterminated character set" ((← here) - start)
    let some symbol ← take | unterminated
    if symbol = .plain ']' && !found.isEmpty then return found
    let member ← setMember symbol scope
    if ← accept '-' then
      let some last ← take | unterminated
      if last = .plain ']' then return .code '-'.toNat :: memberItem member :: found
      let other ← setMember last scope
      let bad {α : Type} : Reading α :=
        refuse ("bad character range " ++ String.ofList symbol.text ++ "-" ++
          String.ofList last.text) (symbol.text.length + 1 + last.text.length)
      match member, other with
      | .inl low, .inl high =>
        if high < low then bad else setItems scope start count (.range low high :: found)
      | _, _ => bad
    else setItems scope start count (memberItem member :: found)

/-- The test of a set. A set of one character is that character, and a set of all others leaves out
its lower case where case does not count. -/
def setTest (items : List SetItem) (negated : Bool) (casing : Casing) : CharTest :=
  match items.eraseDups, negated with
  | [.code n], false => codeTest n casing
  | [.code n], true =>
    if n.isValidChar then .set [.char (casing.lower (Char.ofNat n))] true casing
    else .set [.code n] true casing
  | items, negated => .set items negated casing

/-- A set, after its opening bracket. -/
def characterSet (scope : PatternFlags) : Reading Piece := do
  let start := (← here) - 1
  let negated ← accept '^'
  let found ← setItems scope start ((← get).rest.length + 2) []
  return single (setTest found.reverse negated scope.casing)

/-- A number of rounds, if digits give one. -/
def roundNumber (digits : Text) : Reading (Option Nat) := do
  if digits.isEmpty then return none
  if Text.maxDigits < digits.length then throw (.tooManyDigits digits.length)
  let n := Text.number 10 digits
  if roundLimit ≤ n then throw .hugeRepeat
  return some n

/-- The rounds between braces, after the opening one; nothing if the brace is only a character. -/
def braces : Reading (Option (Nat × Option Nat)) := do
  let start ← get
  if start.symbol = some (.plain '\x7d') then return none
  let low ← takeSome Text.isAsciiDigit (start.rest.length + 1)
  let high ←
    if ← accept ',' then takeSome Text.isAsciiDigit (start.rest.length + 1) else pure low
  if ← accept '\x7d' then
    let least := (← roundNumber low).getD 0
    let most ← roundNumber high
    match most with
    | some most =>
      if most < least then refuse "min repeat greater than max repeat" ((← here) - start.place)
    | none => pure ()
    return some (least, most)
  else
    set start
    return none

/-- Repeat the last of the items, which are given last first. -/
def quantified (items : List Item) (least : Nat) (most : Option Nat) (place : Nat) :
    Reading (List Item) := do
  let back := (← here) - place
  match items with
  | [] => refuse "nothing to repeat" back
  | (_, .anchor) :: _ => refuse "nothing to repeat" back
  | (_, .repeated) :: _ => refuse "multiple repeat" back
  | (piece, .yes) :: before =>
    if ← accept '?' then return (repeated piece least most .fewest, .repeated) :: before
    if ← accept '+' then return (repeated piece least most .all, .repeated) :: before
    return (repeated piece least most .most, .repeated) :: before

/-- The letters that flags are written with. -/
def isFlag (c : Char) : Bool := "iLmsxatu".toList.contains c

/-- Refuse a symbol where a flag or `expected` should stand. -/
def notFlag {α : Type} (symbol : Symbol) (expected : String) : Reading α :=
  match symbol with
  | .plain c =>
    refuse (if Text.isLetter c then "unknown flag" else "missing " ++ expected) 1
  | .escaped _ => refuse ("missing " ++ expected) 2

/-- The flags to turn on from a letter on, with the symbol that ends them. -/
def flagsOn : Nat → Char → Text → Reading (Text × Char)
  | 0, letter, found => return (found, letter)
  | count + 1, letter, found => do
    if letter = 'L' then refuse "bad inline flags: cannot use 'L' flag with a str pattern" 0
    let found := letter :: found
    if found.contains 'a' && found.contains 'u' then
      refuse "bad inline flags: flags 'a', 'u' and 'L' are incompatible" 0
    match ← take with
    | none => refuse "missing -, : or )" 0
    | some (.plain c) =>
      if c = ')' || c = '-' || c = ':' then return (found, c)
      else if isFlag c then flagsOn count c found
      else notFlag (.plain c) "-, : or )"
    | some symbol => notFlag symbol "-, : or )"

/-- The flags to turn off from a letter on. -/
def flagsOff : Nat → Char → Text → Reading Text
  | 0, _, found => return found
  | count + 1, letter, found => do
    if letter = 'a' || letter = 'u' || letter = 'L' then
      refuse "bad inline flags: cannot turn off flags 'a', 'u' and 'L'" 0
    let found := letter :: found
    match ← take with
    | none => refuse "missing :" 0
    | some (.plain c) =>
      if c = ':' then return found
      else if isFlag c then flagsOff count c found
      else notFlag (.plain c) ":"
    | some symbol => notFlag symbol ":"

/-- What flags after a question mark say: flags for the whole pattern, or flags to turn on and off
in a group. -/
def inlineFlags (first : Char) : Reading (PatternFlags ⊕ PatternFlags × PatternFlags) := do
  let count := (← get).rest.length + 2
  let (on, ending) ← if first = '-' then pure ([], '-') else flagsOn count first []
  if ending = ')' then return .inl (.ofLetters on)
  if on.contains 't' then refuse "bad inline flags: cannot turn on global flag" 1
  let off ←
    if ending = '-' then
      match ← take with
      | none => refuse "missing flag" 0
      | some (.plain c) => if isFlag c then flagsOff count c [] else notFlag (.plain c) "flag"
      | some symbol => notFlag symbol "flag"
    else pure []
  if off.contains 't' then refuse "bad inline flags: cannot turn off global flag" 1
  if on.any off.contains then refuse "bad inline flags: flag turned on and off" 1
  return .inr (.ofLetters on, .ofLetters off)

/-- The digits of a whole number, which single underscores may divide; the values of the digits. -/
def groupedDigits : Text → Option (List Nat)
  | [] => none
  | [c] => (Text.decimalValue? c).map fun v => [v]
  | c :: '_' :: rest => do
    let v ← Text.decimalValue? c
    some (v :: (← groupedDigits rest))
  | c :: rest => do
    let v ← Text.decimalValue? c
    some (v :: (← groupedDigits rest))

/-- White space that may stand around a number. -/
def isNumberMargin (c : Char) : Bool := Text.isBlank c && !('\x1c' ≤ c && c ≤ '\x1f')

/-- The number that a text denotes as a whole number, with blanks around it, a sign, and single
underscores between digits of any script. It may not have too many digits. -/
def wholeNumber? (t : Text) : Option Int := do
  let t := Text.trimRight isNumberMargin (t.dropWhile isNumberMargin)
  let (negative, t) := match t with
    | '-' :: rest => (true, rest)
    | '+' :: rest => (false, rest)
    | _ => (false, t)
  let digits ← groupedDigits t
  if Text.maxDigits < digits.length then none
  else
    let n : Nat := digits.foldl (fun n v => 10 * n + v) 0
    some (if negative then -(n : Int) else (n : Int))

/-- The group that a condition asks about. -/
def condition : Reading Nat := do
  let name ← takeUntil ')' "group name" ((← get).rest.length + 2) []
  let back := name.length + 1
  let index ←
    if Text.isIdentifier name then
      match (← get).names.lookup name with
      | some index => pure index
      | none => refuse ("unknown group name " ++ String.ofList name.quoted) back
    else
      match wholeNumber? name with
      | none => refuse ("bad character in group name " ++ String.ofList name.quoted) back
      | some n =>
        if n < 0 then refuse ("bad character in group name " ++ String.ofList name.quoted) back
        else if n = 0 then refuse "bad group number" back
        else if 1073741823 ≤ n then refuse ("invalid group reference " ++ Text.ofInt n) back
        else
          let index := n.toNat
          modify fun s =>
            if (s.asked.lookup index).isSome then s
            else { s with asked := s.asked ++ [(index, s.place - back)] }
          pure index
  checkLookBack index
  return index

/-- The next group, open, under a name if it has one. -/
def openGroup (name : Option Text) : Reading Nat := do
  let index ← groupCount
  modify fun s => { s with widths := s.widths ++ [none] }
  match name with
  | none => return index
  | some name =>
    match (← get).names.lookup name with
    | some other =>
      refuse ("redefinition of group name " ++ String.ofList name.quoted ++ " as group " ++
        Text.ofNat index ++ "; was group " ++ Text.ofNat other) (name.length + 1)
    | none =>
      modify fun s => { s with names := s.names ++ [(name, index)] }
      return index

/-- A group is closed with the width of its body. -/
def closeGroup (index : Nat) (body : Piece) : Reading Piece := do
  modify fun s => { s with widths := s.widths.set (index - 1) (some (body.low, body.high)) }
  return { body with pattern := .group index body.pattern }

/-- Step over a comment in a verbose pattern, up to and including the end of its line. -/
def skipComment : Nat → Reading Unit
  | 0 => return ()
  | count + 1 => do
    match ← take with
    | none => return ()
    | some symbol => if symbol = .plain '\n' then return () else skipComment count

/-- Step over a comment in parentheses that start at the given place. -/
def skipRemark (start : Nat) : Nat → Reading Unit
  | 0 => return ()
  | count + 1 => do
    if (← peek).isNone then refuse "missing ), unterminated comment" ((← here) - start)
    if (← take) = some (.plain ')') then return () else skipRemark start count

/-- The closing parenthesis of a group that starts at the given place. -/
def closing (start : Nat) : Reading Unit := do
  unless ← accept ')' do
    refuse "missing ), unterminated subpattern" ((← here) - start)

/-- The character test of a point. -/
def pointTest (scope : PatternFlags) : CharTest := if scope.dotAll then .any else .notNewline

/-- The opening anchor. -/
def caretAnchor (scope : PatternFlags) : Anchor :=
  if scope.multiline then .lineStart else .textStart

/-- The closing anchor. -/
def dollarAnchor (scope : PatternFlags) : Anchor :=
  if scope.multiline then .lineEnd else .lastLineEnd

/-- What opens after a parenthesis and a question mark. -/
inductive Opening where
  /-- A group with its name and flags; it may capture nothing, or be atomic. -/
  | group (name : Option Text) (captures atomic : Bool) (on off : PatternFlags)
  /-- A look at what follows, or at what precedes. -/
  | look (behind negated : Bool)
  | condition
  /-- A part that is complete already. -/
  | piece (p : Piece)
  /-- Flags for the whole pattern. -/
  | flags (on : PatternFlags)
  | remark

/-- Refuse an unknown opening. -/
def unknownOpening {α : Type} (lead : Text) (symbol : Symbol) : Reading α :=
  refuse ("unknown extension ?" ++ String.ofList (lead ++ symbol.text))
    (symbol.text.length + lead.length + 1)

/-- The opening after `(?P`. -/
def namedOpening (scope : PatternFlags) : Reading Opening := do
  if ← accept '<' then
    let name ← groupName '>'
    return .group (some name) true false {} {}
  else if ← accept '=' then
    let name ← groupName ')'
    match (← get).names.lookup name with
    | none =>
      refuse ("unknown group name " ++ String.ofList name.quoted) (name.length + 1)
    | some index => return .piece (← reference index (name.length + 1) scope)
  else
    match ← take with
    | none => refuse "unexpected end of pattern" 0
    | some symbol => unknownOpening ['P'] symbol

/-- The opening after `(`. -/
def opening (scope : PatternFlags) : Reading Opening := do
  unless ← accept '?' do return .group none true false {} {}
  let some symbol ← take | refuse "unexpected end of pattern" 0
  match symbol with
  | .plain 'P' => namedOpening scope
  | .plain ':' => return .group none false false {} {}
  | .plain '#' => return .remark
  | .plain '=' => return .look false false
  | .plain '!' => return .look false true
  | .plain '<' =>
    match ← take with
    | none => refuse "unexpected end of pattern" 0
    | some (.plain '=') => return .look true false
    | some (.plain '!') => return .look true true
    | some symbol => unknownOpening ['<'] symbol
  | .plain '(' => return .condition
  | .plain '>' => return .group none false true {} {}
  | .plain c =>
    if isFlag c || c = '-' then
      match ← inlineFlags c with
      | .inl on => return .flags on
      | .inr (on, off) => return .group none false false on off
    else unknownOpening [] symbol
  | _ => unknownOpening [] symbol

/-- What reading a branch calls for its groups: alternatives, and a single branch. -/
structure Inner where
  alternatives : PatternFlags → Reading Piece
  branch : PatternFlags → Reading Piece

/-- The body of a look back. Groups inside it are not closed for each other. -/
def lookBehind (inner : Inner) (scope : PatternFlags) : Reading Piece := do
  let outer := (← get).lookBack
  let count ← groupCount
  if outer.isNone then modify fun s => { s with lookBack := some count }
  let body ← inner.alternatives scope
  if outer.isNone then modify fun s => { s with lookBack := none }
  return body

/-- The rest of a look, from its body on. -/
def look (inner : Inner) (scope : PatternFlags) (start : Nat) (behind negated : Bool) :
    Reading Piece := do
  let body ← if behind then lookBehind inner scope else inner.alternatives scope
  closing start
  if behind && body.low ≠ body.high then modify fun s => { s with varying := true }
  return ⟨.look (if behind then body.low else 0) negated body.pattern, 0, 0⟩

/-- The rest of a condition, from the group it asks about on. -/
def conditional (inner : Inner) (scope : PatternFlags) (start : Nat) : Reading Piece := do
  let index ← condition
  let yes ← inner.branch scope
  let no ←
    if ← accept '|' then
      let no ← inner.branch scope
      if (← peek) = some (.plain '|') then
        refuse "conditional backref with more than two branches" 0
      pure (some no)
    else pure none
  closing start
  match no with
  | some no =>
    return ⟨.ifGroup index yes.pattern no.pattern, min yes.low no.low, max yes.high no.high⟩
  | none => return ⟨.ifGroup index yes.pattern .empty, 0, yes.high⟩

/-- The rest of a group, from its body on. -/
def groupBody (inner : Inner) (scope : PatternFlags) (start : Nat) (name : Option Text)
    (captures atomic : Bool) (on off : PatternFlags) : Reading Piece := do
  let index ← if captures then some <$> openGroup name else pure none
  let body ← inner.alternatives (scope.within on off)
  closing start
  match index with
  | some index => closeGroup index body
  | none => return if atomic then { body with pattern := .atomic body.pattern } else body

/-- One part of a branch that `symbol` starts, after it has been taken: the items after it, and the
flags for what follows. `first` says whether flags for the whole pattern may stand here. -/
def part (inner : Inner) (symbol : Symbol) (scope : PatternFlags) (first : Bool)
    (items : List Item) : Reading (List Item × PatternFlags) := do
  let keep (piece : Piece) : Reading (List Item × PatternFlags) :=
    return ((piece, .yes) :: items, scope)
  let anchored (anchor : Anchor) : Reading (List Item × PatternFlags) :=
    return ((⟨.place anchor, 0, 0⟩, .anchor) :: items, scope)
  let place := (← here) - 1
  let times (least : Nat) (most : Option Nat) : Reading (List Item × PatternFlags) :=
    return (← quantified items least most place, scope)
  match symbol with
  | .escaped c => return ((← escape c scope) :: items, scope)
  | .plain '[' => keep (← characterSet scope)
  | .plain '?' => times 0 (some 1)
  | .plain '*' => times 0 none
  | .plain '+' => times 1 none
  | .plain '\x7b' =>
    match ← braces with
    | some (least, most) => times least most
    | none => keep (single (.char '\x7b' scope.casing))
  | .plain '.' => keep (single (pointTest scope))
  | .plain '^' => anchored (caretAnchor scope)
  | .plain '$' => anchored (dollarAnchor scope)
  | .plain '(' =>
    match ← opening scope with
    | .remark =>
      skipRemark place ((← get).rest.length + 2)
      return (items, scope)
    | .flags on =>
      if !first || !items.isEmpty then
        refuse "global flags not at the start of the expression" ((← here) - place)
      modify fun s => { s with flags := s.flags.union on }
      return (items, (← get).flags)
    | .piece p => keep p
    | .look behind negated => keep (← look inner scope place behind negated)
    | .condition => keep (← conditional inner scope place)
    | .group name captures atomic on off =>
      keep (← groupBody inner scope place name captures atomic on off)
  | .plain c => keep (single (.char c scope.casing))

/-- Whether a verbose pattern passes over a character. -/
def isPassedOver (c : Char) : Bool := isAsciiSpace c

mutual

/-- A branch up to a bar, a closing parenthesis or the end. -/
def branchFrom : Nat → PatternFlags → Bool → List Item → Reading Piece
  | 0, _, _, items => return joined items
  | fuel + 1, scope, first, items => do
    let some symbol ← peek | return joined items
    if symbol = .plain '|' || symbol = .plain ')' then return joined items
    advance
    match scope.verbose, symbol with
    | true, .plain '#' =>
      skipComment ((← get).rest.length + 2)
      branchFrom fuel scope first items
    | verbose, _ =>
      if verbose && symbol.text.all isPassedOver then branchFrom fuel scope first items
      else
        let inner : Inner :=
          { alternatives := fun scope => alternativesFrom fuel scope true []
            branch := fun scope => branchFrom fuel scope false [] }
        let (items, scope) ← part inner symbol scope first items
        branchFrom fuel scope first items

/-- Branches with bars between them. At the outermost level every branch is read with the flags of
the whole pattern, and those may be set at the start of the first. -/
def alternativesFrom : Nat → PatternFlags → Bool → List Piece → Reading Piece
  | 0, _, _, found => return chosen found.reverse
  | fuel + 1, scope, nested, found => do
    let piece ← branchFrom fuel scope (!nested && found.isEmpty) []
    if ← accept '|' then
      let outer := (← get).flags
      alternativesFrom fuel (if nested then scope else outer) nested (piece :: found)
    else return chosen (piece :: found).reverse

end

/-- The whole pattern. -/
def expression : Reading Expression := do
  advance
  let s ← get
  let piece ← alternativesFrom (2 * s.whole.length + 4) s.flags false []
  let s ← get
  if s.flags.ascii && s.flags.unicode then throw .clashingFlags
  if s.symbol.isSome then refuse "unbalanced parenthesis" 0
  match s.asked.find? fun (index, _) => s.widths.length < index with
  | some (index, place) =>
    throw (refusal s.whole ("invalid group reference " ++ Text.ofNat index) place)
  | none => pure ()
  if s.varying then throw (.badPattern "look-behind requires fixed-width pattern")
  return { pattern := piece.pattern, groups := s.widths.length, names := s.names }

end PatternReader

/-- The expression that a text is the written form of, under the given flags. -/
def Expression.read (t : Text) (flags : PatternFlags) : Except Fault Expression :=
  (PatternReader.expression.run
    { whole := t, symbol := none, place := 0, rest := t, flags }).map (·.1)

end Emend
