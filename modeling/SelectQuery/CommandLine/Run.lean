import SelectQuery.CommandLine.Session

/-!
# The command

What the command writes and how it exits, given its arguments, its input and the files it may
read. An input that ends in `.sql` names a file; any other is itself a query.
-/

namespace SelectQuery.CommandLine

/-- How the command ends: what it has written, and its exit status. -/
structure Ending where
  outputs : List Output
  status : Nat
  deriving DecidableEq, Repr

/-- The text that `--version` asks for. -/
def versionText : String := "selectql 0.1.0"

/-- The text that `--help` asks for. -/
def helpText : String :=
  .intercalate "\n"
    ["Parse SELECT statements and print them back in canonical form",
      "",
      "Usage: selectql [OPTIONS] [INPUT]",
      "",
      "Arguments:",
      "  [INPUT]  A query, or a path to a `.sql` file. Starts a REPL when omitted",
      "",
      "Options:",
      "      --tokens                 Print the token stream before parsing",
      "      --ast                    Print the outline before the rendered statement",
      "      --max-depth <MAX_DEPTH>  Maximum nesting of conditions [default: 128]",
      "  -v, --verbose                Log at debug level",
      "  -h, --help                   Print help",
      "  -V, --version                Print version"]

/-- Whether an input names a file, however its ending is capitalised. -/
def namesFile (input : String) : Bool := Text.endsWithLowered input ".sql"

/-- Evaluates an input, reading the file that it names if it names one. -/
def evaluateInput (o : Options) (input : String)
    (read : String → Except ReadFailure ByteArray) : Ending :=
  let (outputs, verdict) :=
    if namesFile input then o.evaluateFile input (read input) else o.evaluate input
  ⟨outputs ++ o.report verdict, if verdict.isAccepted then 0 else 1⟩

/-- Carries out a request. A session ends well however it ends. -/
def Request.run (request : Request) (lines : List (Option String))
    (read : String → Except ReadFailure ByteArray) : Ending :=
  match request with
  | .help => ⟨[.outLine helpText], 0⟩
  | .version => ⟨[.outLine versionText], 0⟩
  | .process o (some input) => evaluateInput o input read
  | .process o none => ⟨Session.run o lines, 0⟩

/-- The exit status of a command whose arguments make no request. -/
def usageStatus : Nat := 2

/-- Runs the command on its arguments, its input and the files that it may read. -/
def run (arguments : List String) (input : ByteArray)
    (read : String → Except ReadFailure ByteArray) : Except UsageError Ending :=
  (Request.ofArguments arguments).map (·.run (textLines input) read)

end SelectQuery.CommandLine
