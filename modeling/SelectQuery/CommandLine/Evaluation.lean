import SelectQuery.CommandLine.Arguments
import SelectQuery.CommandLine.Output
import SelectQuery.Error.Detail
import SelectQuery.TokenTable

/-!
# Evaluation

What the command does with one query, given inline or in a file: it shows the tokens if asked
to, parses the query, and reports the statement or the error.
-/

namespace SelectQuery.CommandLine

/-- Why a file cannot be read. -/
inductive ReadFailure where
  | notFound
  | notDirectory
  | isDirectory
  | nameTooLong
  | invalidText
  | other (message : String)
  deriving DecidableEq, Repr

/-- The wording of the system. -/
def ReadFailure.message : ReadFailure → String
  | notFound => "No such file or directory (os error 2)"
  | notDirectory => "Not a directory (os error 20)"
  | isDirectory => "Is a directory (os error 21)"
  | nameTooLong => "File name too long (os error 36)"
  | invalidText => "stream did not contain valid UTF-8"
  | other message => message

/-- What became of a query. -/
inductive Verdict where
  | accepted (s : Statement)
  | rejected (e : ParseError)
  | unreadable (file : String) (reason : ReadFailure)
  deriving DecidableEq, Repr

/-- Whether a query was accepted. -/
def Verdict.isAccepted : Verdict → Bool
  | accepted _ => true
  | rejected _ => false
  | unreadable _ _ => false

namespace Options

/-- The least level that the log shows. -/
def logLevel (o : Options) : LogLevel := if o.verbose then .debug else .warn

/-- The records that the log shows. -/
def log (o : Options) (records : List LogRecord) : List Output :=
  (records.filter (·.level.reaches o.logLevel)).map .ofRecord

/-- Parses a query and logs how it went. -/
def parseQuery (o : Options) (query : String) : List Output × Verdict :=
  let (result, events) := parseLogged o.limit query
  let log := o.log (events.map Event.record)
  match result with
  | .ok s => (log, .accepted s)
  | .error e =>
    (log ++ o.log [⟨.debug, "selectql::repl", "Parse failed: " ++ e.detail⟩], .rejected e)

/-- Evaluates a query. When the tokens are to be shown, a query that cannot be split into tokens
is not parsed at all. -/
def evaluate (o : Options) (query : String) : List Output × Verdict :=
  if o.showTokens then
    match tokenize query with
    | .error e => ([], .rejected (.lexical e))
    | .ok tokens =>
      let (outputs, verdict) := o.parseQuery query
      (.outLine (tokenTable tokens) :: outputs, verdict)
  else o.parseQuery query

/-- Evaluates the query that a file holds, given what reading the file gave. -/
def evaluateFile (o : Options) (file : String) (content : Except ReadFailure ByteArray) :
    List Output × Verdict :=
  match content with
  | .error reason => ([], .unreadable file reason)
  | .ok bytes =>
    match String.fromUTF8? bytes with
    | some query => o.evaluate query
    | none => ([], .unreadable file .invalidText)

/-- Reports what became of a query: a statement in canonical form, below its outline if that is
to be shown, or an error. -/
def report (o : Options) : Verdict → List Output
  | .accepted s => (if o.showOutline then [.outLine s.outline] else []) ++ [.outLine s.render]
  | .rejected e => [.errLine e.message]
  | .unreadable file reason =>
    [.errLine ("Program Error: Failed to open file " ++ file ++ ": " ++ reason.message)]

/-- Evaluates a query and reports what became of it. -/
def answer (o : Options) (query : String) : List Output :=
  let (outputs, verdict) := o.evaluate query
  outputs ++ o.report verdict

end Options

end SelectQuery.CommandLine
