import Emend.Grammar.Literal
import Emend.Grammar.Parameter
import Emend.Grammar.Target

/-!
# Expressions

The grammar of expressions, as functions of the rules that expressions refer back to. `parse` ties
the knot for a depth of nesting. The precedence of arithmetic operators is not kept: it changes
neither the order of the marks nor where they stand.

A node is built after its parts, so its faults come after theirs. Where the parts are not built in
the order in which they stand, a fault is set aside until it is due.
-/

namespace Emend.Grammar.Expression

open Emend.Grammar.Parser

/-- Whether a name with an assignment of a value comes next. -/
def startsNamed : Parser Bool := areNext isName (isSymbol ":=")

/-- Whether a name with an equals sign comes next. -/
def startsKeyword : Parser Bool := areNext isName (isSymbol "=")

/-- Whether a comprehension comes next. -/
def startsClause : Parser Bool := isNext fun t => isWord "for" t || isWord "async" t

section

variable (bound : Nat) (rule : Rules)

/-- A test of a clause, with its keyword. -/
def clauseTest : Parser (Token × Piece) := do
  let t ← word "if"
  let test ← rule .disjunction
  partedAfter t test (.after "if")
  pure (t, test)

/-- The spaces before the tests of a clause; the last expression of the clause. -/
def testSpaces : Piece → List (Token × Piece) → Parser Piece
  | before, [] => pure before
  | before, (t, test) :: rest => do
    partedBefore before t (.before "if")
    testSpaces test rest

/-- The clauses of a comprehension: their first keyword, and their marks. -/
def clauses : Nat → Parser (Token × List Mark)
  | 0 => failure
  | rounds + 1 => do
    let wait ← token? (isWord "async")
    let loop ← word "for"
    let target ← Target.targets bound rule
    let within ← word "in"
    let source ← rule .disjunction
    let tests ← many (clauseTest rule) bound
    let inner ← if ← startsClause then some <$> clauses rounds else pure none
    if wait.isSome && loop.isBroken then report .brokenClause
    partedAfter loop target (.after "for")
    partedBefore target within (.before "in")
    partedAfter within source (.after "in")
    let last ← testSpaces source tests
    match inner with
    | some (t, _) => partedBefore last t (.before (String.ofList t.text))
    | none => pure ()
    let marks := target.marks ++ source.marks ++ tests.flatMap (·.2.marks)
    pure (wait.getD loop, marks ++ (inner.map (·.2)).getD [])

/-- The clauses after an item of a comprehension. -/
def comprehension (item : Piece) : Parser (List Mark) := do
  let (t, marks) ← clauses bound rule bound
  partedBefore item t (.before (String.ofList t.text))
  pure marks

/-- A star in front of an operation. -/
def starred : Parser Piece := do
  let t ← symbol "*"
  (·.starred t.extent) <$> rule .sum

/-- An item of a display: it may have a star or be given a name. -/
def displayItem : Parser Piece := starred rule <|> rule .named

/-- What a function yields: all of another, some values, or nothing. -/
def yielded : Parser Piece := do
  let t ← word "yield"
  match ← token? (isWord "from") with
  | some source =>
    let piece ← rule .expression
    partedAfter source piece (.after "from")
    pure { extent := t.extent.through piece.extent, marks := piece.marks }
  | none =>
    match ← option (rule .values) with
    | some piece =>
      partedAfter t piece (.after "yield")
      pure { extent := t.extent.through piece.extent, marks := piece.marks }
    | none => pure { extent := t.extent, marks := [] }

/-- The rest of a tuple, a group or a comprehension after its parenthesis. -/
def parenthesised (start : Token) : Parser Piece := do
  let close (piece : Piece) : Parser Piece := do
    let stop ← symbol ")"
    pure (piece.parenthesised start.extent stop.extent)
  if ← isNext (isSymbol ")") then close { extent := start.extent, marks := [] }
  else if ← isNext (isWord "yield") then close (← yielded rule)
  else
    let first ← displayItem rule
    if ← startsClause then
      let marks ← comprehension bound rule first
      close { extent := first.extent, marks := first.marks ++ marks }
    else if ← isNext (isSymbol ",") then
      let (rest, closed) ← listed (displayItem rule) bound
      close (first.tuple rest closed)
    else
      check !first.shape.isStarred
      close first

/-- The rest of a list or its comprehension after its bracket. -/
def bracketed (start : Token) : Parser Piece := do
  let close (marks : List Mark) : Parser Piece := do
    let stop ← symbol "]"
    pure (.bracketed start.extent stop.extent marks)
  if ← isNext (isSymbol "]") then close []
  else
    let first ← displayItem rule
    if ← startsClause then
      let marks ← comprehension bound rule first
      close (first.marks ++ marks)
    else
      let (rest, _) ← listed (displayItem rule) bound
      close (first.marks ++ rest.flatMap (·.marks))

/-- An entry of a dictionary. -/
def entry : Parser Piece := do
  match ← token? (isSymbol "**") with
  | some t => (·.starred t.extent) <$> rule .sum
  | none =>
    let key ← rule .expression
    let _ ← symbol ":"
    let value ← rule .expression
    pure (key.merge [value])

/-- The rest of a dictionary, a set or a comprehension after its brace. -/
def braced (start : Token) : Parser Piece := do
  let close (marks : List Mark) : Parser Piece := do
    let stop ← symbol "\x7d"
    pure (.bracketed start.extent stop.extent marks)
  let rest (first : Piece) (item : Parser Piece) : Parser Piece := do
    if ← startsClause then
      let marks ← comprehension bound rule first
      close (first.marks ++ marks)
    else
      let (rest, _) ← listed item bound
      close (first.marks ++ rest.flatMap (·.marks))
  if ← isNext (isSymbol "\x7d") then close []
  else if ← isNext (isSymbol "**") then rest (← entry rule) (entry rule)
  else
    let given ← startsNamed
    let first ← displayItem rule
    if !given && !first.shape.isStarred && (← isNext (isSymbol ":")) then
      let _ ← next
      let value ← rule .expression
      rest (first.merge [value]) (entry rule)
    else rest first (displayItem rule)

/-- A name or a constant; a constant is no target. -/
def nameOrConstant : Parser Piece := do
  match ← token? isConstant with
  | some t => pure { extent := t.extent, marks := [.name t.extent] }
  | none =>
    let t ← name
    pure { extent := t.extent, marks := [.name t.extent], shape := .name t.extent }

/-- The smallest parts of expressions. -/
def atom : Parser Piece := do
  match ← peek? with
  | none => failure
  | some t =>
    match t.kind with
    | .word => nameOrConstant
    | .number => Literal.number
    | .string | .formatOpen => Literal.strings bound (rule .field)
    | .symbol =>
      let _ ← next
      if isSymbol "(" t then parenthesised bound rule t
      else if isSymbol "[" t then bracketed bound rule t
      else if isSymbol "\x7b" t then braced bound rule t
      else if isSymbol "..." t then pure (.bracketed t.extent t.extent [])
      else failure
    | _ => failure

/-- How far a list of arguments has come: any may follow, none by position, or none by position and
none with one star. -/
inductive ArgumentPhase where
  | any
  | noPositional
  | noStar
  deriving DecidableEq, Repr

/-- One argument. -/
def argument (phase : ArgumentPhase) : Parser (Piece × ArgumentPhase) := do
  if let some t ← token? (isSymbol "*") then
    check (phase ≠ .noStar)
    let piece ← rule .expression
    pure ({ piece.starred t.extent with loose := piece.loose }, phase)
  else if ← taken (isSymbol "**") then
    let piece ← rule .expression
    pure (piece, .noStar)
  else if ← startsKeyword then
    let (mark, fault) ← apart nameMark
    let _ ← symbol "="
    let piece ← rule .expression
    report? fault
    pure ({ piece with marks := mark :: piece.marks },
      if phase = .any then .noPositional else phase)
  else
    check (phase = .any)
    let piece ← rule .named
    pure (piece, phase)

/-- Arguments up to their closing parenthesis, which stays. -/
def argumentList : Nat → ArgumentPhase → Parser (List Mark)
  | 0, _ => failure
  | rounds + 1, phase => do
    if ← isNext (isSymbol ")") then pure []
    else
      let (first, phase) ← argument rule phase
      if ← taken (isSymbol ",") then
        let rest ← argumentList rounds phase
        pure (first.marks ++ rest)
      else pure first.marks

/-- The arguments of a call after its parenthesis: one comprehension, or a list. -/
def callArguments : Parser (List Mark) := do
  if ← isNext (isSymbol ")") then pure []
  else
    let listOnly := (← isNext (isSymbol "**")) || (← startsKeyword)
    let (first, phase) ← argument rule .any
    if !listOnly && (← startsClause) then
      check !(first.shape.isStarred && first.loose)
      let marks ← comprehension bound rule first
      pure (first.marks ++ marks)
    else if ← taken (isSymbol ",") then
      let rest ← argumentList rule bound phase
      pure (first.marks ++ rest)
    else pure first.marks

/-- The arguments of a class up to their closing parenthesis, which stays. None without a name comes
after one with a name. -/
def baseList : Nat → ArgumentPhase → Parser (List Mark)
  | 0, _ => failure
  | rounds + 1, phase => do
    if ← isNext (isSymbol ")") then pure []
    else
      let (first, phase) ← argument rule phase
      if ← taken (isSymbol ",") then
        let rest ← baseList rounds (if phase = .any then .any else .noStar)
        pure (first.marks ++ rest)
      else pure first.marks

/-- A part of an item: an index, a range, or an index with a star. -/
def slicePart : Parser (List Mark) := do
  if ← taken (isSymbol "*") then
    let piece ← rule .expression
    pure piece.marks
  else
    let isEdge (t : Token) : Bool := isSymbol ":" t || isSymbol "," t || isSymbol "]" t
    let edge : Parser (List Mark) := do
      if ← isNext isEdge then pure []
      else
        let piece ← rule .expression
        pure piece.marks
    let given ← startsNamed
    let lower ← if ← isNext (isSymbol ":") then pure [] else (·.marks) <$> rule .named
    if given then pure lower
    else if ← taken (isSymbol ":") then
      let upper ← edge
      let stride ← if ← taken (isSymbol ":") then edge else pure []
      pure (lower ++ upper ++ stride)
    else pure lower

/-- Take an attribute, an item or the result of a call of a piece. -/
def trailer (whole : Piece) (t : Token) : Parser Piece := do
  let _ ← next
  if isSymbol "." t then
    let member ← name
    let extent := whole.extent.through member.extent
    pure
      { extent
        marks := .member extent :: whole.marks ++ [.name member.extent]
        shape := .location
        before := whole.before }
  else if isSymbol "(" t then
    let marks ← callArguments bound rule
    let stop ← symbol ")"
    let extent := whole.extent.through stop.extent
    pure
      { extent
        marks := .call extent whole.shape.name? :: whole.marks ++ marks
        before := whole.before
        after := .free }
  else
    let first ← slicePart rule
    let (rest, _) ← listed (slicePart rule) bound
    let stop ← symbol "]"
    pure
      { extent := whole.extent.through stop.extent
        marks := whole.marks ++ first ++ rest.flatten
        shape := .location
        before := whole.before
        after := .free }

/-- All that is taken of a piece. -/
def trailers : Nat → Piece → Parser Piece
  | 0, whole => pure whole
  | rounds + 1, whole => do
    match ← peek? with
    | some t =>
      if isTrailer t then
        match ← option (trailer bound rule whole t) with
        | some whole => trailers rounds whole
        | none => pure whole
      else pure whole
    | none => pure whole

/-- An atom with all that is taken of it. -/
def primary : Parser Piece := do
  trailers bound rule bound (← atom bound rule)

/-- The symbols that stand before an operand. -/
def signs : List Text := ["+", "-", "~"].map String.toList

/-- The symbols that stand between operands. -/
def operators : List Text :=
  ["+", "-", "*", "/", "//", "%", "@", "<<", ">>", "&", "|", "^", "**"].map String.toList

/-- The symbols that compare. -/
def comparisons : List Text := ["==", "!=", "<", "<=", ">", ">="].map String.toList

/-- One of some symbols. -/
def symbolOf (symbols : List Text) : Parser Token :=
  satisfy fun t => t.kind = .symbol && symbols.contains t.text

/-- A value that may be waited for. -/
def waited : Parser Piece := do
  match ← token? (isWord "await") with
  | some t =>
    let piece ← primary bound rule
    partedAfter t piece .afterAwait
    pure { extent := t.extent.through piece.extent, marks := piece.marks }
  | none => primary bound rule

/-- An operand with its signs. -/
def operand : Parser Piece := do
  let before ← many (symbolOf signs) bound
  let piece ← waited bound rule
  match before with
  | [] => pure piece
  | t :: _ =>
    pure
      { extent := t.extent.through piece.extent
        marks := piece.marks
        before := .free
        after := piece.after }

/-- Operands with operators between them. -/
def sum : Parser Piece := do
  let first ← operand bound rule
  let rest ← many (symbolOf operators *> operand bound rule) bound
  if rest.isEmpty then pure first else pure (first.merge rest)

/-- What compares two operations: its first and last token, and whether it is made of words. -/
structure Comparator where
  first : Token
  last : Token
  verbal : Bool

/-- What compares two operations. -/
def comparator : Parser Comparator := do
  let t ← next
  if t.kind = .symbol then
    check (comparisons.contains t.text)
    pure ⟨t, t, false⟩
  else if isWord "in" t then pure ⟨t, t, true⟩
  else if isWord "not" t then
    let last ← word "in"
    pure ⟨t, last, true⟩
  else if isWord "is" t then
    let last ← token? (isWord "not")
    pure ⟨t, last.getD t, true⟩
  else failure

/-- What compares two operations, and the second of them. -/
def compared : Parser (Comparator × Piece) := do
  let c ← comparator
  let piece ← sum bound rule
  if c.verbal then partedAfter c.last piece .aroundComparison
  pure (c, piece)

/-- The spaces before what compares. -/
def comparatorSpaces : Piece → List (Comparator × Piece) → Parser Unit
  | _, [] => pure ()
  | before, (c, piece) :: rest => do
    if c.verbal then partedBefore before c.first .aroundComparison
    comparatorSpaces piece rest

/-- Operations with comparisons between them. -/
def comparison : Parser Piece := do
  let first ← sum bound rule
  let rest ← many (compared bound rule) bound
  comparatorSpaces first rest
  if rest.isEmpty then pure first
  else pure { first.merge (rest.map (·.2)) with loose := true }

/-- A comparison that may be denied. -/
def inversion : Parser Piece := do
  let denials ← many (word "not") bound
  let piece ← comparison bound rule
  let deny (piece : Piece) (t : Token) : Parser Piece := do
    partedAfter t piece .afterNot
    pure
      { extent := t.extent.through piece.extent
        marks := piece.marks
        loose := true
        after := piece.after }
  denials.reverse.foldlM deny piece

/-- Pieces with a word between them, the first being given. -/
def joined (keyword : String) (part : Parser Piece) : Nat → Piece → Parser Piece
  | 0, whole => pure whole
  | rounds + 1, whole => do
    match ← token? (isWord keyword) with
    | none => pure whole
    | some t =>
      let piece ← part
      partedBefore whole t .aroundBoolean
      partedAfter t piece .aroundBoolean
      joined keyword part rounds { whole.merge [piece] with loose := true }

/-- Comparisons that hold together. -/
def conjunction : Parser Piece := do
  joined "and" (inversion bound rule) bound (← inversion bound rule)

/-- Conjunctions of which one holds. -/
def disjunction : Parser Piece := do
  joined "or" (conjunction bound rule) bound (← conjunction bound rule)

/-- A function without a name, after its keyword. -/
def anonymous (start : Token) : Parser Piece := do
  let rules : Parameter.Rules :=
    { default := rule .expression, ascription := none, starAscription := none, anonymous := true }
  let marks ← Parameter.list rules (isSymbol ":") bound
  let _ ← symbol ":"
  let body ← rule .expression
  pure
    { extent := start.extent.through body.extent
      marks := marks ++ body.marks
      shape := .function
      loose := true
      before := .undecided
      after := body.after }

/-- The rest of a choice, after the value that is chosen if its test holds. The test is built before
that value, whose fault was set aside. -/
def choice (first : Piece) (fault : Option NodeFault) : Parser Piece := do
  let condition ← word "if"
  let test ← rule .disjunction
  report? fault
  let otherwise ← word "else"
  let other ← rule .expression
  partedBefore first condition (.before "if")
  partedAfter condition test (.after "if")
  partedBefore test otherwise (.before "else")
  partedAfter otherwise other (.after "else")
  pure { first.merge [test, other] with loose := true }

/-- A value without a comma. -/
def expression : Parser Piece := do
  match ← token? (isWord "lambda") with
  | some t => anonymous bound rule t
  | none =>
    let (first, fault) ← apart (disjunction bound rule)
    match ← option (choice rule first fault) with
    | some piece => pure piece
    | none =>
      report? fault
      pure first

/-- A value that may be given a name. -/
def named : Parser Piece := do
  if ← startsNamed then
    let t ← name
    let _ ← symbol ":="
    let value ← rule .expression
    pure
      { extent := t.extent.through value.extent
        marks := .name t.extent :: value.marks
        loose := true
        after := value.after }
  else expression bound rule

/-- Values with commas between them, with or without stars. -/
def values : Parser Piece := Target.listOf bound (starred rule <|> expression bound rule)

end

/-- What may stand to the right of an assignment. -/
def value (bound : Nat) (rule : Rules) : Parser Piece := yielded rule <|> values bound rule

/-- The rules at one depth of nesting, by those at the next. -/
def step (bound : Nat) (rule : Rules) : Rules
  | .expression => expression bound rule
  | .named => named bound rule
  | .disjunction => disjunction bound rule
  | .sum => sum bound rule
  | .primary => primary bound rule
  | .values => values bound rule
  | .value => value bound rule
  | .field => Literal.field bound (value bound rule) (rule .field)
  | .target => Target.assignable bound rule
  | .deletable => Target.deletable bound rule

/-- Parse an expression of a category with at most so much nesting. -/
def parse : Nat → Rules
  | 0, _ => failure
  | depth + 1, category => step depth (parse depth) category

end Emend.Grammar.Expression
