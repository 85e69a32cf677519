import SelectQuery.Statement

/-!
# The log

What reading and parsing report while they run. An `Event` says what happened; its record says
at which level, under which target and in which words it is logged.
-/

namespace SelectQuery

/-- How important a record is, from the least important on. -/
inductive LogLevel where
  | trace
  | debug
  | warn
  | error
  deriving DecidableEq, Repr

namespace LogLevel

/-- The name of a level. -/
def name : LogLevel → String
  | trace => "TRACE"
  | debug => "DEBUG"
  | warn => "WARN"
  | error => "ERROR"

/-- The rank of a level: the higher, the more important. -/
def rank : LogLevel → Nat
  | trace => 0
  | debug => 1
  | warn => 2
  | error => 3

/-- Whether a record of a level is kept by a log that starts at `least`. -/
def reaches (level least : LogLevel) : Bool := least.rank ≤ level.rank

end LogLevel

/-- One entry of the log. -/
structure LogRecord where
  level : LogLevel
  target : String
  message : String
  deriving DecidableEq, Repr

/-- A record is written with its level and target in front. -/
def LogRecord.render (r : LogRecord) : String :=
  r.level.name ++ " " ++ r.target ++ " " ++ r.message

/-- What the lexer and the parser report. -/
inductive Event where
  | lexed (t : Token)
  | consumed (t : Token)
  | started (span : Span)
  | finished (s : Statement)
  deriving DecidableEq, Repr

namespace Event

/-- The log entry of an event. -/
def record : Event → LogRecord
  | lexed t => ⟨.trace, "lexer", toString t⟩
  | consumed t => ⟨.trace, "parser", "Consumed " ++ toString t⟩
  | started span => ⟨.debug, "parser", "Parsing statement starting at " ++ toString span⟩
  | finished s => ⟨.debug, "parser", "Parsed statement: " ++ s.render⟩

/-- The events of reading a token. The end of the source is not reported. -/
def ofRead (t : Token) : List Event :=
  if t.kind = .eof then [] else [lexed t]

end Event

end SelectQuery
