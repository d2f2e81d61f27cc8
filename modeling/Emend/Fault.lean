import Emend.Text.Quoted
import Emend.Text.Utf8

/-!
# Faults

Every reason for which an operation refuses its input, as a cause with the data that the wording
needs. `Fault.kind` names the class under which a report files the fault and `Fault.message` words
it. Which fault arises when is decided by the operations; this module only words them.

A whole number that comes from a caller is written by `Text.writeInt` wherever it is written, and
one with too many digits is refused there. The words of a fault are put together when it arises, so
`Fault.showing` lets a number in them that cannot be written take the place of the fault.
-/

namespace Emend

/-- A file operation that the tree refuses. -/
inductive FileFault where
  | notFound
  | alreadyExists
  | notDirectory
  | isDirectory
  | tooManyLinks
  | isLink
  | busy
  | nameTooLong
  | invalidArgument
  | denied
  /-- A path holds a null character. -/
  | nullByte
  /-- A path holds a surrogate that stands for no byte. -/
  | surrogateName
  /-- The bytes of a path are no text. -/
  | illegalName
  /-- A text holds `count` surrogates from a place on, the first of which has a code. -/
  | surrogates (place count code : Nat)
  deriving DecidableEq, Repr

/-- The class of a refused file operation. -/
def FileFault.kind : FileFault → String
  | .notFound => "FileNotFoundError"
  | .alreadyExists => "FileExistsError"
  | .notDirectory => "NotADirectoryError"
  | .isDirectory => "IsADirectoryError"
  | .tooManyLinks => "OSError"
  | .isLink => "OSError"
  | .busy => "OSError"
  | .nameTooLong => "OSError"
  | .invalidArgument => "OSError"
  | .denied => "PermissionError"
  | .nullByte => "ValueError"
  | .surrogateName => "UnicodeEncodeError"
  | .illegalName => "OSError"
  | .surrogates .. => "UnicodeEncodeError"

/-- The wording of a refused file operation, without its path. -/
def FileFault.message : FileFault → String
  | .notFound => "[Errno 2] No such file or directory"
  | .alreadyExists => "[Errno 17] File exists"
  | .notDirectory => "[Errno 20] Not a directory"
  | .isDirectory => "[Errno 21] Is a directory"
  | .tooManyLinks => "[Errno 40] Too many levels of symbolic links"
  | .isLink => "Cannot call rmtree on a symbolic link"
  | .busy => "[Errno 16] Device or resource busy"
  | .nameTooLong => "[Errno 36] File name too long"
  | .invalidArgument => "[Errno 22] Invalid argument"
  | .denied => "[Errno 13] Permission denied"
  | .nullByte => "embedded null byte"
  | .surrogateName => "surrogates not allowed"
  | .illegalName => "[Errno 84] Invalid or incomplete multibyte or wide character"
  | .surrogates place count code =>
    "'utf-8' codec can't encode " ++
      (if count = 1 then
        "character '\\u" ++ String.ofList (Text.hexadecimal 4 code) ++ "' in position " ++
          Text.ofNat place
      else
        "characters in position " ++ Text.ofNat place ++ "-" ++ Text.ofNat (place + count - 1)) ++
      ": surrogates not allowed"

/-- A setting whose value does not allow the use that is made of it. The type of the value is given
by the name under which reports show it. -/
inductive SettingFault where
  /-- A value that is not a table is looked into. -/
  | notTable (type : String)
  /-- A value that holds no items is taken apart. -/
  | notIterable (type : String)
  /-- A value that is no number is subtracted from one. -/
  | notSubtractable (type : String)
  /-- Two values without an order are compared. -/
  | notComparable (left right : String)
  /-- A fraction is used as a line number. -/
  | notWhole
  /-- A fraction is used as a count of lines. -/
  | notCount
  /-- A value that is no text is used as a glob. -/
  | notGlob (type : String)
  /-- A value that is no text is written as a line. -/
  | notLine (type : String)
  /-- A value that has no form in a document is saved. -/
  | notSavable (type : String)
  deriving DecidableEq, Repr

/-- The class of a misused setting. -/
def SettingFault.kind : SettingFault → String
  | .notTable _ => "AttributeError"
  | _ => "TypeError"

/-- The wording of a misused setting. -/
def SettingFault.message : SettingFault → String
  | .notTable type => "'" ++ type ++ "' object has no attribute 'get'"
  | .notIterable type => "'" ++ type ++ "' object is not iterable"
  | .notSubtractable type => "unsupported operand type(s) for -: 'int' and '" ++ type ++ "'"
  | .notComparable left right =>
    "'>' not supported between instances of '" ++ left ++ "' and '" ++ right ++ "'"
  | .notWhole => "'float' object cannot be interpreted as an integer"
  | .notCount => "slice indices must be integers or None or have an __index__ method"
  | .notGlob type => "expected str, bytes or os.PathLike object, not " ++ type
  | .notLine type =>
    if type = "list" then "can only concatenate list (not \"str\") to list"
    else "unsupported operand type(s) for +: '" ++ type ++ "' and 'str'"
  | .notSavable type => "Object of type '" ++ type ++ "' is not TOML serializable"

/-- Where a keyword stands without the blank that it needs. -/
inductive Crowding where
  /-- After a keyword within an expression or of a compound statement. -/
  | after (keyword : String)
  /-- Before a keyword within an expression or of a compound statement. -/
  | before (keyword : String)
  /-- After the keyword of a simple statement. -/
  | afterVerb (keyword : String)
  /-- Before the cause of something raised. -/
  | beforeCause
  | aroundBoolean
  | aroundComparison
  | afterNot
  | afterAwait
  | afterWith
  /-- Before the type of a handler. -/
  | afterExcept
  /-- Before the target of a context. -/
  | beforeTarget
  /-- Before the name of something handled. -/
  | beforeHandled
  | afterAs
  deriving DecidableEq, Repr

/-- The wording of a missing blank. -/
def Crowding.message : Crowding → String
  | after keyword => "Must have at least one space after '" ++ keyword ++ "' keyword."
  | before keyword => "Must have at least one space before '" ++ keyword ++ "' keyword."
  | afterVerb keyword => "Must have at least one space after '" ++ keyword ++ "'."
  | beforeCause => "Must have at least one space before 'from'."
  | aroundBoolean => "Must have at least one space around boolean operator."
  | aroundComparison => "Must have at least one space around comparison operator."
  | afterNot => "Must have at least one space after not operator."
  | afterAwait => "Must have at least one space after await"
  | afterWith => "Must have at least one space after with keyword."
  | afterExcept => "Must have at least one space after except when ExceptHandler has a type."
  | beforeTarget => "Must have at least one space before as keyword."
  | beforeHandled => "Must have at least one space before as keyword in an except handler."
  | afterAs => "There must be at least one space between 'as' and name."

/-- A construct that the grammar reads but that is not well formed. -/
inductive NodeFault where
  /-- A word whose characters do not all belong to identifiers. -/
  | notIdentifier (name : Text)
  /-- A whole number that starts with a zero. -/
  | badInteger
  /-- Adjacent literals of text and of bytes. -/
  | mixedLiterals
  /-- A literal followed by a template. -/
  | templateLast
  /-- A handler without a type stands before another handler. -/
  | earlyHandler
  /-- A keyword without the blank that it needs. -/
  | crowded (place : Crowding)
  /-- A keyword right before a function without a name: whether it needs a blank is not decided. -/
  | undecided
  /-- A line ends between the keyword of an asynchronous clause and the clause. -/
  | brokenClause
  deriving DecidableEq, Repr

/-- The class of a construct that is not well formed. -/
def NodeFault.kind : NodeFault → String
  | templateLast => "CSTLogicError"
  | undecided => "TypeError"
  | brokenClause => "AttributeError"
  | _ => "CSTValidationError"

/-- The wording of a construct that is not well formed. -/
def NodeFault.message : NodeFault → String
  | notIdentifier name => "Name " ++ String.ofList name.quoted ++ " is not a valid identifier."
  | badInteger => "Number is not a valid integer."
  | mixedLiterals => "Cannot concatenate string and bytes."
  | templateLast => "Logic error!"
  | earlyHandler => "The bare except: handler must be the last one."
  | crowded place => place.message
  | undecided => "super(type, obj): obj must be an instance or subtype of type"
  | brokenClause => "'ParenthesizedWhitespace' object has no attribute 'value'"

/-- The name under which messages show a text that may have no file. -/
def urlOrText (url : Option String) : String :=
  match url with
  | none => "<text>"
  | some "" => "<text>"
  | some url => url

/-- The name of a file, or the word for its absence. -/
def urlOrNone (url : Option String) : String := url.getD "None"

/-- Why an operation was refused. -/
inductive Fault where
  /-- A range of offsets does not fit the text it refers to. -/
  | invalidRange (start stop : Int) (length : Nat)
  /-- A line number outside the text. -/
  | lineOutOfRange (line : Int) (url : Option String)
  /-- A line number too far below zero to count from the end of the line table. -/
  | beyondLineTable
  /-- Two patches cover one region; `first` and `second` are their ranges. -/
  | overlap (first second : Nat × Nat) (url : Option String)
  /-- A patch was built against another text; it is given as it describes itself. -/
  | foreignPatch (description : String)
  /-- A match is asked for a group that its pattern does not have. -/
  | noSuchGroup
  /-- A pattern suggestor was given no pattern. -/
  | noPattern
  /-- A pattern is not well formed. -/
  | badPattern (message : String)
  /-- A pattern asks for too many rounds. -/
  | hugeRepeat
  /-- A pattern asks for two alphabets at once. -/
  | clashingFlags
  /-- A decimal number has more digits than are read. -/
  | tooManyDigits (count : Nat)
  /-- A whole number has more digits than are written. -/
  | tooLongNumber
  /-- A suggestor raised an error of its own. -/
  | raised (message : String)
  /-- A suggestor returned nothing to iterate over. -/
  | nothingReturned
  /-- A suggestor yielded a value that is not a patch, and a part of a patch was asked of it. -/
  | notPatch (type part : String)
  /-- A suggestor was built with the wrong parameters. -/
  | badParameters (message : String)
  /-- No source is being visited. -/
  | notVisiting
  /-- A construct of a module that is not well formed. -/
  | node (fault : NodeFault)
  /-- A refused file operation. -/
  | file (fault : FileFault)
  /-- Bytes that are no text. -/
  | undecodable (fault : Text.Utf8Fault)
  /-- A misused setting. -/
  | setting (fault : SettingFault)
  deriving DecidableEq, Repr

namespace Fault

/-- The range as messages show it. -/
def showRange (start stop : String) : String := "[" ++ start ++ ", " ++ stop ++ ")"

/-- The class under which reports file a fault. -/
def kind : Fault → String
  | invalidRange .. => "InvalidRange"
  | lineOutOfRange .. => "IndexError"
  | beyondLineTable => "IndexError"
  | overlap .. => "OverlappingPatches"
  | foreignPatch _ => "ValueError"
  | noSuchGroup => "IndexError"
  | noPattern => "ValueError"
  | badPattern _ => "error"
  | hugeRepeat => "OverflowError"
  | clashingFlags => "ValueError"
  | tooManyDigits _ => "ValueError"
  | tooLongNumber => "ValueError"
  | raised _ => "RuntimeError"
  | nothingReturned => "TypeError"
  | notPatch .. => "AttributeError"
  | badParameters _ => "TypeError"
  | notVisiting => "RuntimeError"
  | node fault => fault.kind
  | file fault => fault.kind
  | undecodable _ => "UnicodeDecodeError"
  | setting fault => fault.kind

/-- The wording of a fault. -/
def message : Fault → String
  | invalidRange start stop length =>
    "Invalid range " ++ showRange (Text.ofInt start) (Text.ofInt stop) ++ " for text of length " ++
      Text.ofNat length
  | lineOutOfRange line url =>
    "Line " ++ Text.ofInt line ++ " out of range for " ++ urlOrText url
  | beyondLineTable => "list index out of range"
  | overlap first second url =>
    "Overlapping patches: " ++ showRange (Text.ofNat first.1) (Text.ofNat first.2) ++ " and " ++
      showRange (Text.ofNat second.1) (Text.ofNat second.2) ++ " in " ++ urlOrNone url
  | foreignPatch description => "Patch does not belong to this text: " ++ description
  | noSuchGroup => "no such group"
  | noPattern => "ReplaceSuggestor needs a pattern"
  | badPattern message => message
  | hugeRepeat => "the repetition number is too large"
  | clashingFlags => "ASCII and UNICODE flags are incompatible"
  | tooManyDigits count =>
    "Exceeds the limit (" ++ Text.ofNat Text.maxDigits ++
      " digits) for integer string conversion: value has " ++ Text.ofNat count ++
      " digits; use sys.set_int_max_str_digits() to increase the limit"
  | tooLongNumber =>
    "Exceeds the limit (" ++ Text.ofNat Text.maxDigits ++
      " digits) for integer string conversion; " ++
      "use sys.set_int_max_str_digits() to increase the limit"
  | raised message => message
  | nothingReturned => "'NoneType' object is not iterable"
  | notPatch type part => "'" ++ type ++ "' object has no attribute '" ++ part ++ "'"
  | badParameters message => message
  | notVisiting => "No file is being visited"
  | node fault => fault.message
  | file fault => fault.message
  | undecodable fault => fault.message
  | setting fault => fault.message

/-- A fault as the last line of a report. -/
def trace (f : Fault) : String := "<traceback> " ++ f.kind ++ ": " ++ f.message

end Fault

/-- The decimal text of a whole number. One with too many digits is not written. -/
def Text.writeInt (n : Int) : Except Fault Text :=
  if isWritable n then .ok (ofInt n).toList else .error .tooLongNumber

theorem Text.writeInt_of_writable {n : Int} (writable : isWritable n = true) :
    writeInt n = .ok (ofInt n).toList := if_pos writable

theorem Text.writeInt_of_unwritable {n : Int} (unwritable : isWritable n = false) :
    writeInt n = .error .tooLongNumber := by
  rw [writeInt, unwritable]
  rfl

namespace Fault

/-- A fault in the words of which numbers are shown. The first of them that cannot be written is the
fault instead. -/
def showing : List Int → Fault → Fault
  | [], fault => fault
  | n :: rest, fault =>
    match Text.writeInt n with
    | .error cause => cause
    | .ok _ => showing rest fault

theorem showing_of_writable {numbers : List Int}
    (writable : ∀ n ∈ numbers, Text.isWritable n = true) (fault : Fault) :
    showing numbers fault = fault := by
  induction numbers with
  | nil => rfl
  | cons n rest inductionHypothesis =>
    rw [showing, Text.writeInt_of_writable (writable n List.mem_cons_self)]
    exact inductionHypothesis fun m member => writable m (List.mem_cons_of_mem n member)

theorem showing_of_unwritable {numbers : List Int} {n : Int} (member : n ∈ numbers)
    (unwritable : Text.isWritable n = false) (fault : Fault) :
    showing numbers fault = .tooLongNumber := by
  induction numbers with
  | nil => cases member
  | cons m rest inductionHypothesis =>
    rw [showing]
    cases first : Text.isWritable m with
    | false => rw [Text.writeInt_of_unwritable first]
    | true =>
      rw [Text.writeInt_of_writable first]
      rcases List.mem_cons.mp member with rfl | member
      · cases unwritable.symm.trans first
      · exact inductionHypothesis member

theorem showing_single (n : Int) (fault : Fault) :
    showing [n] fault = if Text.isWritable n then fault else .tooLongNumber := by
  cases writable : Text.isWritable n with
  | false => exact showing_of_unwritable List.mem_cons_self writable fault
  | true => exact showing_of_writable (by simpa using writable) fault

end Fault

/-- A sequence of two steps succeeds if both do. -/
theorem bind_eq_ok {ε α β : Type} {first : Except ε α} {next : α → Except ε β} {result : β}
    (succeeded : first >>= next = .ok result) :
    ∃ value, first = .ok value ∧ next value = .ok result := by
  cases first with
  | error fault => cases succeeded
  | ok value => exact ⟨value, rfl, succeeded⟩

/-- What is refused in two steps is refused by one of them. -/
theorem bind_eq_error {ε α β : Type} {first : Except ε α} {next : α → Except ε β} {fault : ε}
    (refused : first >>= next = .error fault) :
    first = .error fault ∨ ∃ value, first = .ok value ∧ next value = .error fault := by
  cases first with
  | error cause =>
    cases refused
    exact .inl rfl
  | ok value => exact .inr ⟨value, rfl, refused⟩

/-- A result that is passed on succeeds if there is one. -/
theorem map_eq_ok {α β ε : Type} {f : α → β} {x : Except ε α} {y : β} (mapped : x.map f = .ok y) :
    ∃ a, x = .ok a ∧ y = f a := by
  cases x with
  | error fault => cases mapped
  | ok a => exact ⟨a, rfl, (Except.ok.inj mapped).symm⟩

end Emend
