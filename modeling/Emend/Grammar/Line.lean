import Emend.Grammar.Expression

/-!
# Lines

The statements that have a line or a part of one: assignments, imports, and those that start with a
keyword and hold no block. A statement is kept by its marks.
-/

namespace Emend.Grammar.Line

open Emend.Grammar.Parser

/-- The stops of an assignment that computes. -/
def computing : List Text :=
  ["+=", "-=", "*=", "/=", "//=", "%=", "@=", "&=", "|=", "^=", "<<=", ">>=", "**="].map
    String.toList

/-- A token that stands between a target and what is assigned to it. -/
def isAssigning (t : Token) : Bool :=
  t.kind = .symbol && (isSymbol "=" t || isSymbol ":" t || computing.contains t.text)

/-- Whether a statement has a token that can make it an assignment, outside of all brackets; the
brackets that are open are counted. -/
def hasAssigning : Nat → List Token → Bool
  | _, [] => false
  | depth, t :: rest =>
    if t.kind = .newline || isSymbol ";" t then false
    else if isSymbol "(" t || isSymbol "[" t || isSymbol "\x7b" t then hasAssigning (depth + 1) rest
    else if isSymbol ")" t || isSymbol "]" t || isSymbol "\x7d" t then hasAssigning (depth - 1) rest
    else (depth = 0 && isAssigning t) || hasAssigning depth rest

section

variable (bound : Nat) (rule : Rules)

/-- The marks of an expression. -/
def marksOf (category : Category) : Parser (List Mark) := (·.marks) <$> rule category

/-- A target with the type of what it holds, and perhaps a value. -/
def ascribed : Parser (List Mark) := do
  let target ← Target.single rule
  let _ ← symbol ":"
  let ascription ← marksOf rule .expression
  let value ← option (symbol "=" *> marksOf rule .value)
  pure (target.marks ++ ascription ++ value.getD [])

/-- Targets that are all given one value. -/
def assigned : Parser (List Mark) := do
  let targets ← many (Target.targets bound rule <* symbol "=") bound
  check !targets.isEmpty
  let value ← marksOf rule .value
  check !(← isNext (isSymbol "="))
  pure (targets.flatMap (·.marks) ++ value)

/-- A target whose value is computed from the one that it has. -/
def computed : Parser (List Mark) := do
  let target ← Target.one rule
  let _ ← Expression.symbolOf computing
  let value ← marksOf rule .value
  pure (target.marks ++ value)

/-- An assignment of any form, or values. -/
def valuesOrAssignment : Parser (List Mark) := fun c =>
  if hasAssigning 0 c.tokens then
    (ascribed rule <|> assigned bound rule <|> computed rule <|> marksOf rule .value) c
  else marksOf rule .value c

/-- The name by which something goes, if it gets one. -/
def alias? : Parser (List Mark) := do
  match ← option (word "as" *> nameMark) with
  | some mark => pure [mark]
  | none => pure []

/-- A module that is imported. -/
def importedModule : Parser (List Mark) := do
  let piece ← dottedName bound
  let name ← alias?
  pure (piece.marks ++ name)

/-- A name that is imported from a module. -/
def importedName : Parser (List Mark) := do
  let mark ← nameMark
  let name ← alias?
  pure (mark :: name)

/-- Names imported from a module, after the keyword. -/
def importedNames : Parser (List Mark) := do
  if ← taken (isSymbol "*") then pure []
  else if ← taken (isSymbol "(") then
    let first ← importedName
    let (rest, _) ← listed importedName bound
    let _ ← symbol ")"
    pure (first ++ rest.flatten)
  else
    let first ← importedName
    let rest ← many (symbol "," *> importedName) bound
    pure (first ++ rest.flatten)

/-- Where names are imported from, after the keyword. -/
def origin : Parser (List Mark) := do
  let dots ← many (satisfy fun t => isSymbol "." t || isSymbol "..." t) bound
  if !dots.isEmpty && (← isNext (isWord "import")) then pure []
  else (·.marks) <$> dottedName bound

/-- A token that starts an import. -/
def startsImport (t : Token) : Bool := isWord "import" t || isWord "from" t

/-- An import of modules or of names from one. -/
def imported : Parser (List Mark) := do
  if ← taken (isWord "import") then
    let first ← importedModule bound
    let rest ← many (symbol "," *> importedModule bound) bound
    pure (first ++ rest.flatten)
  else
    let _ ← word "from"
    let source ← origin bound
    let _ ← word "import"
    let names ← importedNames bound
    pure (source ++ names)

/-- Names with commas between them. -/
def nameList : Parser (List Mark) := do
  let first ← nameMark
  let rest ← many (symbol "," *> nameMark) bound
  pure (first :: rest)

/-- A parameter of a type. Of the gap between stars and their name only the part on the line of the
stars is written. -/
def typeParameter : Parser (List Mark) := do
  let star ← taken (isSymbol "*")
  let two ← if star then pure false else taken (isSymbol "**")
  if star || two then loseBroken
  let mark ← nameMark
  let limit ← if star || two then pure none else option (symbol ":" *> marksOf rule .expression)
  let value ← option do
    let _ ← symbol "="
    let _ ← if star then taken (isSymbol "*") else pure false
    marksOf rule .expression
  pure (mark :: (limit.getD [] ++ value.getD []))

/-- The parameters of a type, if there are any. -/
def typeParameters : Parser (List Mark) := do
  if ← taken (isSymbol "[") then
    let first ← typeParameter rule
    let (rest, _) ← listed (typeParameter rule) bound
    let _ ← symbol "]"
    pure (first ++ rest.flatten)
  else pure []

/-- A name for a type. Its parameters are built last. -/
def typeAlias : Parser (List Mark) := do
  let _ ← word "type"
  let mark ← nameMark
  let (parameters, fault) ← apart (typeParameters bound rule)
  let _ ← symbol "="
  let value ← marksOf rule .expression
  report? fault
  pure (mark :: (parameters ++ value))

/-- What is returned, after the keyword. -/
def returned (t : Token) : Parser (List Mark) := do
  match ← option (rule .values) with
  | none => pure []
  | some piece =>
    partedAfter t piece (.afterVerb "return")
    pure piece.marks

/-- What is raised, after the keyword, and its cause. -/
def raised (t : Token) : Parser (List Mark) := do
  match ← option (rule .expression) with
  | none => pure []
  | some piece =>
    match ← token? (isWord "from") with
    | none =>
      partedAfter t piece (.afterVerb "raise")
      pure piece.marks
    | some source =>
      let cause ← rule .expression
      partedAfter source cause (.after "from")
      partedAfter t piece (.afterVerb "raise")
      partedBefore piece source .beforeCause
      pure (piece.marks ++ cause.marks)

/-- What is asserted, after the keyword. -/
def asserted (t : Token) : Parser (List Mark) := do
  let test ← rule .expression
  let note ← option (symbol "," *> marksOf rule .expression)
  partedAfter t test (.afterVerb "assert")
  pure (test.marks ++ note.getD [])

/-- What is deleted, after the keyword. -/
def deleted (t : Token) : Parser (List Mark) := do
  let piece ← Target.listOf bound (rule .deletable)
  partedAfter t piece (.afterVerb "del")
  pure piece.marks

/-- A statement that has a line or a part of one. -/
def small : Parser (List Mark) := do
  match ← peek? with
  | none => failure
  | some t =>
    if isWord "pass" t || isWord "break" t || isWord "continue" t then next *> pure []
    else if isWord "return" t then next *> returned rule t
    else if isWord "raise" t then next *> raised rule t
    else if isWord "assert" t then next *> asserted rule t
    else if isWord "del" t then next *> deleted bound rule t
    else if isWord "global" t || isWord "nonlocal" t then next *> nameList bound
    else if startsImport t then imported bound
    else if ← areNext (isWord "lazy") startsImport then next *> imported bound
    else if isWord "type" t then typeAlias bound rule <|> valuesOrAssignment bound rule
    else valuesOrAssignment bound rule

/-- A line of small statements. -/
def line : Parser (List Mark) := do
  let first ← small bound rule
  let rest ← many (symbol ";" *> small bound rule) bound
  let _ ← taken (isSymbol ";")
  let _ ← ofKind .newline
  pure (first ++ rest.flatten)

end

end Emend.Grammar.Line
