import Emend.Grammar.Scan
import Emend.Grammar.Written

/-!
# Reading tokens

The reader goes over a text once. Between brackets the ends of lines mean nothing; outside they end
logical lines, and the margin of a logical line opens and closes blocks. A formatted string is read
piece by piece: its text, and in its fields the tokens of expressions, where a string may again be
opened with the same quotes and lines may end as between brackets.

What the reader passes over is the gap before the next token. The margin of a logical line is no
gap; where it is not the indentation of its block, it is written otherwise.
-/

namespace Emend.Grammar

/-- An open block: its margin, measured with tabs to every eighth column and with tabs of one
column. -/
structure Block where
  margin : Text
  width : Nat
  narrow : Nat
  deriving DecidableEq, Repr

/-- What the reader is inside of. -/
inductive Mode where
  /-- A bracket, with the character that closes it. -/
  | bracket (close : Char)
  /-- The text of a formatted string. -/
  | format (quote : Char) (triple raw : Bool)
  /-- A field of a formatted string. -/
  | field
  /-- The format specification of a field. -/
  | spec
  deriving DecidableEq, Repr

/-- The state of the reader. The tokens read so far are kept last first. -/
structure Lexer where
  rest : Text
  offset : Nat := 0
  /-- What was passed over since the last token of the line. -/
  gap : Text := []
  blocks : List Block := [⟨[], 0, 0⟩]
  modes : List Mode := []
  /-- Whether the next token starts a logical line. -/
  fresh : Bool := true
  tokens : List Token := []
  /-- What is written otherwise, last first. -/
  rewordings : List Rewording := []
  deriving Repr

namespace Lexer

/-- Blanks within a line. -/
def isGap (c : Char) : Bool := c = ' ' || c = '\t' || c = '\x0c'

/-- Pass over characters between two tokens. -/
def pass (s : Lexer) (taken rest : Text) : Lexer :=
  { s with rest, offset := s.offset + taken.length, gap := s.gap ++ taken }

/-- Read a token. -/
def emit (s : Lexer) (kind : TokenKind) (taken rest : Text) : Lexer :=
  let stop := s.offset + taken.length
  { s with
    rest
    offset := stop
    gap := []
    fresh := false
    tokens := ⟨kind, taken, ⟨s.offset, stop⟩, s.gap⟩ :: s.tokens }

/-- Add a token that covers no text. -/
def mark (s : Lexer) (kind : TokenKind) : Lexer :=
  { s with tokens := ⟨kind, [], ⟨s.offset, s.offset⟩, []⟩ :: s.tokens }

/-- The widths of a margin; a form feed starts it anew. -/
def widths : Text → Nat × Nat → Nat × Nat
  | [], w => w
  | c :: rest, (wide, narrow) =>
    widths rest <|
      if c = '\t' then ((wide / 8 + 1) * 8, narrow + 1)
      else if c = '\x0c' then (0, 0)
      else (wide + 1, narrow + 1)

/-- The most blocks that may be open at once, counting the module itself. -/
def maxBlocks : Nat := 100

/-- Close blocks until one of the given widths is innermost. -/
def closeBlocks (width narrow : Nat) : List Block → Lexer → Option Lexer
  | [], _ => none
  | b :: outer, s =>
    if b.width = width then if b.narrow = narrow then some { s with blocks := b :: outer } else none
    else if b.width < width then none
    else closeBlocks width narrow outer (s.mark .dedent)

/-- Open or close blocks by the margin of a logical line. -/
def settle (s : Lexer) (margin : Text) : Option Lexer :=
  let (width, narrow) := widths margin (0, 0)
  match s.blocks with
  | [] => none
  | b :: _ =>
    if b.width < width then
      if b.narrow < narrow && b.margin.isPrefixOf margin && s.blocks.length < maxBlocks then
        some { s.mark .indent with blocks := ⟨margin, width, narrow⟩ :: s.blocks }
      else none
    else closeBlocks width narrow s.blocks s

/-- The indentation of the innermost block. -/
def indentation (s : Lexer) : Text := (s.blocks.head?.map (·.margin)).getD []

/-- Pass over a blank line. -/
def passLine (s : Lexer) (taken rest : Text) : Lexer :=
  { s with rest, offset := s.offset + taken.length }

/-- Pass over the margin of a logical line, which is written as the indentation of its block. -/
def passMargin (s : Lexer) (taken rest : Text) : Lexer :=
  let stop := s.offset + taken.length
  { s with
    rest
    offset := stop
    fresh := false
    rewordings :=
      if taken = s.indentation then s.rewordings
      else ⟨⟨s.offset, stop⟩, s.indentation⟩ :: s.rewordings }

/-- What follows a margin: the rest of a blank line, a token, or nothing. Continued lines count to
the margin, and a continued line may not be the last. -/
inductive Opening where
  /-- A blank line with its end, and what follows it. -/
  | blank (taken rest : Text)
  /-- The margin of a token; whether the margin was continued. -/
  | token (taken rest : Text) (continued : Bool)

/-- Read the start of a logical line. -/
def opening : Nat → Bool → Text → Text → Option Opening
  | 0, _, _, _ => none
  | fuel + 1, continued, taken, t =>
    let taken := taken ++ t.takeWhile isGap
    let t := t.dropWhile isGap
    match t with
    | [] => some (.blank taken [])
    | '#' :: _ =>
      let (comment, t) := Scan.restOfLine t
      match Scan.lineEnd? t with
      | some (ending, t) => some (.blank (taken ++ comment ++ ending) t)
      | none => some (.blank (taken ++ comment) t)
    | '\\' :: t =>
      match Scan.lineEnd? t with
      | some (ending, t) =>
        if t.isEmpty then none else opening fuel true (taken ++ ['\\'] ++ ending) t
      | none => none
    | _ =>
      match Scan.lineEnd? t with
      | some (ending, t) => some (.blank (taken ++ ending) t)
      | none => some (.token taken t continued)

/-- Start a logical line, or pass over a blank one. -/
def startLine (s : Lexer) : Option Lexer := do
  match ← opening (s.rest.length + 1) false [] s.rest with
  | .blank taken rest => some (s.passLine taken rest)
  | .token taken rest continued =>
    let s ← if continued then some s else s.settle taken
    some (s.passMargin taken rest)

/-- The character that closes a bracket. -/
def closing? (c : Char) : Option Char :=
  if c = '(' then some ')'
  else if c = '[' then some ']'
  else if c = '\x7b' then some '\x7d'
  else none

/-- Read a symbol. Brackets open and close modes; in a field a colon opens the format specification,
and an exclamation mark stands before a conversion. -/
def symbol (s : Lexer) : Option Lexer :=
  match s.rest, s.modes with
  | '\x7d' :: rest, .field :: outer => some { s.emit .symbol ['\x7d'] rest with modes := outer }
  | ':' :: rest, .field :: _ =>
    some { s.emit .symbol [':'] rest with modes := .spec :: s.modes }
  | '!' :: rest, .field :: _ =>
    match rest with
    | '=' :: rest => some (s.emit .symbol ['!', '='] rest)
    | _ => some (s.emit .symbol ['!'] rest)
  | _, _ => do
    let (taken, rest) ← Scan.symbol s.rest
    let next := s.emit .symbol taken rest
    match taken with
    | [c] =>
      match closing? c with
      | some close => some { next with modes := .bracket close :: s.modes }
      | none =>
        if c = ')' || c = ']' || c = '\x7d' then
          match s.modes with
          | .bracket close :: outer => if close = c then some { next with modes := outer } else none
          | _ => none
        else some next
    | _ => some next

/-- Open a formatted string whose letters are `letters`. -/
def openFormat (s : Lexer) (letters : Text) (quote : Char) (t : Text) : Lexer :=
  let triple := Scan.isTriple quote t
  let width := if triple then 3 else 1
  let raw := letters.any fun c => c = 'r' || c = 'R'
  { s.emit .formatOpen (letters ++ t.take width) (t.drop width) with
    modes := .format quote triple raw :: s.modes }

/-- Read a word, or the string that it stands before. -/
def wordOrString (s : Lexer) (letters t : Text) : Option Lexer :=
  let folded := letters.map Text.lowerAscii
  match t with
  | c :: _ =>
    if c = '\'' || c = '"' then
      if Scan.stringLetters.contains folded then do
        let (body, rest) ← Scan.string c t
        some (s.emit .string (letters ++ body) rest)
      else if Scan.formatLetters.contains folded then some (s.openFormat letters c t)
      else some (s.emit .word letters t)
    else some (s.emit .word letters t)
  | [] => some (s.emit .word letters t)

/-- Read one token of an expression or a statement. -/
def token (s : Lexer) (c : Char) : Option Lexer :=
  if c = '\'' || c = '"' then do
    let (body, rest) ← Scan.string c s.rest
    some (s.emit .string body rest)
  else if Text.isAsciiDigit c || (c = '.' && (s.rest.drop 1).head?.any Text.isAsciiDigit) then do
    let (taken, rest) ← Scan.number s.rest
    some (s.emit .number taken rest)
  else
    match Scan.word s.rest with
    | some (letters, t) => s.wordOrString letters t
    | none => s.symbol

/-- Read on within a logical line. -/
def within (s : Lexer) : Option Lexer :=
  match s.rest with
  | [] => none
  | c :: rest =>
    if isGap c then some (s.pass (s.rest.takeWhile isGap) (s.rest.dropWhile isGap))
    else if c = '#' then
      let (comment, t) := Scan.restOfLine s.rest
      some (s.pass comment t)
    else if c = '\\' then
      match Scan.lineEnd? rest with
      | some (ending, t) => if t.isEmpty then none else some (s.pass (c :: ending) t)
      | none => none
    else
      match Scan.lineEnd? s.rest with
      | some (ending, t) =>
        if s.modes.isEmpty then some { s.emit .newline ending t with fresh := true }
        else some (s.pass ending t)
      | none => s.token c

/-- Read on in the text of a formatted string or in a format specification. -/
def inFormat (s : Lexer) (quote : Char) (triple raw spec : Bool) : Option Lexer := do
  let (taken, rest) ← Scan.formatText quote triple raw spec false s.rest
  let s := if taken.isEmpty then s else s.emit .formatText taken rest
  match rest with
  | '\x7b' :: rest => some { s.emit .symbol ['\x7b'] rest with modes := .field :: s.modes }
  | '\x7d' :: rest =>
    if spec then some { s.emit .symbol ['\x7d'] rest with modes := s.modes.drop 2 } else none
  | _ =>
    if spec then none
    else
      let width := if triple then 3 else 1
      some { s.emit .formatClose (rest.take width) (rest.drop width) with modes := s.modes.drop 1 }

/-- The quote of the formatted string that a format specification belongs to, whether it is tripled,
and whether it is raw. -/
def enclosing? : List Mode → Option (Char × Bool × Bool)
  | [] => none
  | .format quote triple raw :: _ => some (quote, triple, raw)
  | _ :: outer => enclosing? outer

/-- Read on by one step. -/
def step (s : Lexer) : Option Lexer :=
  match s.modes with
  | .format quote triple raw :: _ => s.inFormat quote triple raw false
  | .spec :: outer => do
    let (quote, triple, raw) ← enclosing? outer
    s.inFormat quote triple raw true
  | [] => if s.fresh then s.startLine else s.within
  | _ => s.within

/-- End the last line and close all blocks. -/
def finish (s : Lexer) : Option Lexer :=
  if s.modes.isEmpty then
    let s := if s.fresh then s else s.mark .newline
    some ((s.blocks.drop 1).foldl (fun s _ => s.mark .dedent) s)
  else none

/-- Read on to the end of the text. -/
def run : Nat → Lexer → Option Lexer
  | 0, _ => none
  | fuel + 1, s => if s.rest.isEmpty then s.finish else s.step.bind (run fuel)

end Lexer

/-- The tokens of a text and what of it is written otherwise, or nothing if it has a character or a
margin that no token allows. A byte order mark at the start is not written. -/
def tokens? (t : Text) : Option (List Token × List Rewording) := do
  let start : Lexer :=
    match t with
    | '\ufeff' :: rest => { rest, offset := 1, rewordings := [.lost ⟨0, 1⟩] }
    | _ => { rest := t }
  let final ← start.run (2 * t.length + 2)
  some (final.tokens.reverse, final.rewordings.reverse)

end Emend.Grammar
