import Emend.Fault
import Emend.Fragment

/-!
# Log records

A record is written as its level, the name of its logger and its message, followed on a line of its
own by the fault that caused it, if one did. A log shows the records of its own family of loggers
that reach its level.

A family of loggers writes to one stream at a time. Setting up a log for it takes the place of the
log that was set up before; what that one has written stays.
-/

namespace Emend

/-- How serious a record is. -/
inductive Level where
  | debug
  | info
  | warning
  | error
  | critical
  deriving DecidableEq, Repr

namespace Level

/-- The name of a level. -/
def name : Level → String
  | debug => "DEBUG"
  | info => "INFO"
  | warning => "WARNING"
  | error => "ERROR"
  | critical => "CRITICAL"

/-- The level that a name stands for. Two levels have a second name, and the name for the lack of a
level stands for none. -/
def ofName? (name : String) : Option Level :=
  match name with
  | "DEBUG" => some debug
  | "INFO" => some info
  | "WARNING" | "WARN" => some warning
  | "ERROR" => some error
  | "CRITICAL" | "FATAL" => some critical
  | _ => none

/-- The style that records of a level are shown in. -/
def style : Level → String
  | debug => "class:level-debug"
  | info => "class:level-info"
  | warning => "class:level-warning"
  | error => "class:level-error"
  | critical => "class:level-critical"

/-- The rank of a level. -/
def rank : Level → Nat
  | debug => 10
  | info => 20
  | warning => 30
  | error => 40
  | critical => 50

end Level

/-- The family of loggers whose records are shown. -/
def logFamily : String := "codemods"

/-- One record. -/
structure Record where
  level : Level
  logger : String
  message : Text
  cause : Option Fault := none
  deriving DecidableEq, Repr

namespace Record

/-- Whether a record belongs to the family of loggers that are shown. -/
def isFamily (r : Record) : Bool :=
  r.logger = logFamily || (logFamily ++ ".").toList.isPrefixOf r.logger.toList

/-- A record as text, with its final newline. -/
def text (r : Record) : Text :=
  let head := ("[" ++ r.level.name ++ "] " ++ r.logger ++ ": ").toList ++ r.message
  let tail := match r.cause with
    | none => []
    | some fault =>
      (if head.getLast? = some '\n' then [] else ['\n']) ++ fault.trace.toList
  head ++ tail ++ ['\n']

end Record

/-- What a log shows, and how. -/
structure Log where
  verbose : Bool := false
  ansi : Bool := false
  deriving DecidableEq, Repr

namespace Log

/-- The lowest level that is shown. -/
def threshold (log : Log) : Level := if log.verbose then .debug else .info

/-- What the log writes for a record; nothing if it is not to be shown. -/
def shown (log : Log) (r : Record) : Text :=
  if r.isFamily && log.threshold.rank ≤ r.level.rank then
    Fragment.render log.ansi [⟨r.level.style, r.text⟩]
  else []

end Log

/-- What a family of loggers has written to streams, and the stream and log that are set up. -/
structure Logging where
  streams : List (String × Text) := []
  current : Option (String × Log) := none
  deriving DecidableEq, Repr

namespace Logging

/-- Write to a stream from now on, and to no other. -/
def setUp (l : Logging) (stream : String) (log : Log) : Logging :=
  { streams := if (l.streams.lookup stream).isSome then l.streams else l.streams ++ [(stream, [])]
    current := some (stream, log) }

/-- Hand a record to the log that is set up, if there is one. -/
def record (l : Logging) (r : Record) : Logging :=
  match l.current with
  | none => l
  | some (stream, log) =>
    { l with
      streams := l.streams.map fun (name, written) =>
        (name, if name = stream then written ++ log.shown r else written) }

/-- The lowest level that is shown. -/
def threshold (l : Logging) : Level := ((l.current.map Prod.snd).getD {}).threshold

end Logging

end Emend
