import Emend.Grammar.CasePattern
import Emend.Grammar.Line

/-!
# Statements

The grammar of statements that hold blocks, as functions of the rules for expressions and of the
rule for a block. A statement is kept by its marks.

A statement is built after its blocks: the space after its keyword is looked at only then. Some
parts are not built in the order in which they stand: the type of a handler comes after its block,
and so do the arguments of a class, decorators, and the type of what a function returns.
-/

namespace Emend.Grammar.Statement

open Emend.Grammar.Parser

section

variable (bound : Nat) (rule : Rules) (block : Parser (List Mark))

/-- A colon and a block. -/
def body : Parser (List Mark) := symbol ":" *> block

/-- What is done otherwise, if anything. -/
def otherwise : Parser (List Mark) := do
  if ← taken (isWord "else") then body block else pure []

/-- The rest of a conditional, after its keyword. -/
def conditional : Nat → Token → Parser (List Mark)
  | 0, _ => failure
  | rounds + 1, t => do
    let test ← rule .named
    let inner ← body block
    let rest ←
      match ← token? (isWord "elif") with
      | some t => conditional rounds t
      | none => otherwise block
    partedAfter t test (.after "if")
    pure (test.marks ++ inner ++ rest)

/-- The rest of a loop with a test, after its keyword. -/
def testLoop (t : Token) : Parser (List Mark) := do
  let test ← rule .named
  let inner ← body block
  let rest ← otherwise block
  partedAfter t test (.after "while")
  pure (test.marks ++ inner ++ rest)

/-- A loop over a source. -/
def loop : Parser (List Mark) := do
  let t ← word "for"
  let target ← Target.targets bound rule
  let within ← word "in"
  let source ← rule .values
  let inner ← body block
  let rest ← otherwise block
  partedAfter t target (.after "for")
  partedBefore target within (.before "in")
  partedAfter within source (.after "in")
  pure (target.marks ++ source.marks ++ inner ++ rest)

/-- A context that is entered, with the target of its value: the context's own piece, and all
marks. -/
def context : Parser (Piece × List Mark) := do
  let value ← rule .expression
  match ← token? (isWord "as") with
  | none => pure (value, value.marks)
  | some t =>
    let target ← Target.starred rule
    check (← isNext fun t => isSymbol "," t || isSymbol ")" t || isSymbol ":" t)
    partedAfter t target .afterAs
    partedBefore value t .beforeTarget
    pure (value, value.marks ++ target.marks)

/-- A statement that enters contexts. In parentheses they need no space after the keyword. -/
def entering : Parser (List Mark) := do
  let t ← word "with"
  let inParentheses : Parser (List Mark × Option Piece) := do
    let _ ← symbol "("
    let first ← context rule
    let (rest, _) ← listed (context rule) bound
    let _ ← symbol ")"
    check (← isNext (isSymbol ":"))
    pure (first.2 ++ rest.flatMap (·.2), none)
  let plain : Parser (List Mark × Option Piece) := do
    let first ← context rule
    let rest ← many (symbol "," *> context rule) bound
    check (← isNext (isSymbol ":"))
    pure (first.2 ++ rest.flatMap (·.2), some first.1)
  let (contexts, first) ← inParentheses <|> plain
  let inner ← body block
  match first with
  | some piece => partedAfter t piece .afterWith
  | none => pure ()
  pure (contexts ++ inner)

/-- The type of a handler, or several of them, and the name of what is handled. Without a name the
gap after the type is not written. The spaces around the type are looked at later. -/
def handled (star : Bool) (t : Token) : Parser (List Mark × Parser Unit) := do
  let first ← rule .expression
  let spaceAfter (piece : Piece) : Parser Unit :=
    if star then pure () else partedAfter t piece .afterExcept
  if ← taken (isSymbol ",") then
    let second ← rule .expression
    let (rest, closed) ← listed (rule .expression) bound
    loseGap
    let types := first.tuple (second :: rest) closed
    pure (types.marks, spaceAfter types)
  else
    match ← token? (isWord "as") with
    | none =>
      loseGap
      pure (first.marks, spaceAfter first)
    | some keyword =>
      let mark ← nameMark
      let spaceBefore : Parser Unit :=
        if star then pure () else partedBefore first keyword .beforeHandled
      pure (first.marks ++ [mark], spaceAfter first *> spaceBefore)

/-- A handler: its marks, and whether it has no type. -/
def handler (star : Bool) : Parser (List Mark × Bool) := do
  let t ← word "except"
  if star then
    let _ ← symbol "*"
  if !star && (← isNext (isSymbol ":")) then
    let inner ← body block
    pure (inner, true)
  else
    let ((types, spaces), fault) ← apart (handled bound rule star t)
    let inner ← body block
    report? fault
    spaces
    pure (types ++ inner, false)

/-- The rest of a statement with handlers, after its keyword. A handler without a type is the
last. -/
def guarded : Parser (List Mark) := do
  let inner ← body block
  let star ← areNext (isWord "except") (isSymbol "*")
  let handlers ← many (handler bound rule block star) bound
  let rest ← if handlers.isEmpty then pure [] else otherwise block
  let last ←
    if ← taken (isWord "finally") then body block
    else do
      check !handlers.isEmpty
      pure []
  if handlers.dropLast.any (·.2) then report .earlyHandler
  pure (inner ++ handlers.flatMap (·.1) ++ rest ++ last)

/-- A definition: its marks, and a fault that is due after its decorators. -/
abbrev Definition := List Mark × Option NodeFault

/-- A function. -/
def function : Parser Definition := do
  let _ ← word "def"
  let mark ← nameMark
  let types ← Line.typeParameters bound rule
  let _ ← symbol "("
  let ascription := rule .expression
  let rules : Parameter.Rules :=
    { default := rule .expression
      ascription := some ascription
      starAscription := some (Expression.starred rule <|> ascription)
      anonymous := false }
  let parameters ← Parameter.list rules (isSymbol ")") bound
  let _ ← symbol ")"
  let (result, fault) ← apart (option (symbol "->" *> Line.marksOf rule .expression))
  let inner ← body block
  pure (mark :: (types ++ parameters ++ result.getD [] ++ inner), fault)

/-- A class. -/
def classDefinition : Parser Definition := do
  let _ ← word "class"
  let mark ← nameMark
  let types ← Line.typeParameters bound rule
  let (arguments, fault) ←
    apart do
      if ← taken (isSymbol "(") then Expression.baseList rule bound .any <* symbol ")"
      else pure []
  let inner ← body block
  report? fault
  pure (mark :: (types ++ arguments ++ inner), none)

/-- A function or a class. -/
def definition : Parser Definition := do
  if ← isNext (isWord "class") then classDefinition bound rule block
  else
    let _ ← taken (isWord "async")
    function bound rule block

/-- A function or class with its decorators, if it has any. -/
def decorated : Parser (List Mark) := do
  let (decorators, early) ←
    apart (many (symbol "@" *> Line.marksOf rule .named <* ofKind .newline) bound)
  let (marks, late) ← definition bound rule block
  report? early
  report? late
  pure (decorators.flatten ++ marks)

/-- One case. -/
def caseBlock : Parser (List Mark) := do
  let _ ← word "case"
  let pattern ← CasePattern.top (rule .field) bound
  let guard ← option (word "if" *> Line.marksOf rule .named)
  let inner ← body block
  pure (pattern ++ guard.getD [] ++ inner)

/-- What cases are compared with. -/
def subject : Parser (List Mark) := do
  let first ← Expression.displayItem rule
  let (rest, closed) ← listed (Expression.displayItem rule) bound
  check (!first.shape.isStarred || closed || !rest.isEmpty)
  pure (first.marks ++ rest.flatMap (·.marks))

/-- A statement of cases. -/
def matching : Parser (List Mark) := do
  let _ ← word "match"
  let value ← subject bound rule
  let _ ← symbol ":"
  let _ ← ofKind .newline
  let _ ← ofKind .indent
  let first ← caseBlock bound rule block
  let rest ← many (caseBlock bound rule block) bound
  let _ ← ofKind .dedent
  pure (value ++ first ++ rest.flatten)

/-- A statement after the keyword that makes it asynchronous. -/
def asynchronous : Parser (List Mark) := do
  if ← isNext (isWord "for") then loop bound rule block
  else if ← isNext (isWord "with") then entering bound rule block
  else
    let (marks, fault) ← function bound rule block
    report? fault
    pure marks

/-- A statement. -/
def statement : Parser (List Mark) := do
  match ← peek? with
  | none => failure
  | some t =>
    if isWord "if" t then next *> conditional rule block bound t
    else if isWord "while" t then next *> testLoop rule block t
    else if isWord "for" t then loop bound rule block
    else if isWord "with" t then entering bound rule block
    else if isWord "try" t then next *> guarded bound rule block
    else if isWord "class" t || isWord "def" t || isSymbol "@" t then decorated bound rule block
    else if isWord "async" t then next *> asynchronous bound rule block
    else if isWord "match" t then matching bound rule block <|> Line.line bound rule
    else Line.line bound rule

end

/-- A block with at most so much nesting: an indented one, or the rest of the line. -/
def blockAt (bound : Nat) (rule : Rules) : Nat → Parser (List Mark)
  | 0 => failure
  | depth + 1 => do
    if ← taken (·.kind = .newline) then
      let _ ← ofKind .indent
      let first ← statement bound rule (blockAt bound rule depth)
      let rest ← many (statement bound rule (blockAt bound rule depth)) bound
      let _ ← ofKind .dedent
      pure (first ++ rest.flatten)
    else Line.line bound rule

end Emend.Grammar.Statement
