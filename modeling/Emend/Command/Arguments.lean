import Emend.Command.Similar
import Emend.Text.Quoted

/-!
# Arguments of a command

The arguments of a command are options and other words. Options may have several names, short names
of one letter can be put together, and two hyphens end the options. An option may take a value: what
follows an equals sign after a long name, the rest of the word after a short name, or the next word.
-/

namespace Emend.Command

/-- An option of a command. -/
structure Switch (α : Type) where
  names : List String
  target : α
  takesValue : Bool := false

/-- What is wrong with the arguments of a command. -/
inductive UsageFault where
  /-- There is no such option; the options that are similar. -/
  | noSuchOption (name : Text) (near : List Text)
  | unexpectedValue (option : Text)
  | missingValue (option : Text)
  | extraArguments (words : List Text)
  | missingArgument (name : String)
  | missingCommand
  | noSuchCommand (name : Text) (near : List Text)
  deriving DecidableEq, Repr

/-- What the arguments of a command say: options in order, each with its value if it takes one, and
the other words. -/
structure Arguments (α : Type) where
  options : List (α × Text) := []
  words : List Text := []

namespace Arguments

variable {α : Type}

/-- Put a word in front. -/
def withWord (word : Text) (a : Arguments α) : Arguments α := { a with words := word :: a.words }

/-- The values of an option, in order. -/
def valuesOf [DecidableEq α] (a : Arguments α) (target : α) : List Text :=
  a.options.filterMap fun (t, value) => if t = target then some value else none

/-- Whether an option is given. -/
def has [DecidableEq α] (a : Arguments α) (target : α) : Bool := !(a.valuesOf target).isEmpty

/-- Whether a name is a long one. -/
def isLong (name : String) : Bool := "--".toList.isPrefixOf name.toList

/-- The option with a name. -/
def find? (switches : List (Switch α)) (name : Text) : Option (Switch α) :=
  switches.find? fun s => s.names.any fun n => n.toList = name

/-- The long names of options. -/
def longNames (switches : List (Switch α)) : List Text :=
  switches.flatMap fun s => (s.names.filter isLong).map String.toList

/-- The letters of short options that are put together, after their hyphen. The options found, and
the words left. -/
def letters (switches : List (Switch α)) :
    Text → List Text → Except UsageFault (List (α × Text) × List Text)
  | [], rest => .ok ([], rest)
  | c :: more, rest =>
    match find? switches ['-', c] with
    | none => .error (.noSuchOption ['-', c] [])
    | some s =>
      if s.takesValue then
        match more, rest with
        | [], [] => .error (.missingValue ['-', c])
        | [], value :: rest => .ok ([(s.target, value)], rest)
        | value, rest => .ok ([(s.target, value)], rest)
      else (letters switches more rest).map fun (found, rest) => ((s.target, []) :: found, rest)

/-- A word that starts with a hyphen: the options in it, and the words left. -/
def optionWord (switches : List (Switch α)) (word : Text) (rest : List Text) :
    Except UsageFault (List (α × Text) × List Text) :=
  let name := word.takeWhile (· ≠ '=')
  let value? := if word.contains '=' then some ((word.dropWhile (· ≠ '=')).drop 1) else none
  let long := if "--".toList.isPrefixOf word then find? switches name else none
  match long with
  | some s =>
    if s.takesValue then
      match value?, rest with
      | some value, rest => .ok ([(s.target, value)], rest)
      | none, value :: rest => .ok ([(s.target, value)], rest)
      | none, [] => .error (.missingValue name)
    else
      match value? with
      | some _ => .error (.unexpectedValue name)
      | none => .ok ([(s.target, [])], rest)
  | none =>
    if "--".toList.isPrefixOf word then
      .error (.noSuchOption name (similarWords name (longNames switches)))
    else letters switches (word.drop 1) rest

/-- Read at most so many words. Without `interspersed` the first other word ends the options. -/
def readWithin (switches : List (Switch α)) (interspersed : Bool) :
    Nat → List Text → Except UsageFault (Arguments α)
  | 0, words => .ok { words }
  | _ + 1, [] => .ok {}
  | bound + 1, word :: rest =>
    if word = "--".toList then .ok { words := rest }
    else if word.head? = some '-' && 1 < word.length then
      match optionWord switches word rest with
      | .error fault => .error fault
      | .ok (found, rest) =>
        (readWithin switches interspersed bound rest).map fun a =>
          { a with options := found ++ a.options }
    else if interspersed then
      (readWithin switches interspersed bound rest).map (·.withWord word)
    else .ok { words := word :: rest }

/-- Read the arguments of a command. -/
def read (switches : List (Switch α)) (interspersed : Bool) (words : List Text) :
    Except UsageFault (Arguments α) :=
  readWithin switches interspersed words.length words

end Arguments

end Emend.Command
