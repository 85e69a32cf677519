import SelectQuery.Log
import SelectQuery.Text.Plain

/-!
# Output

What the command writes, piece by piece in order, to one of its two streams. Log records go to
the error stream as plain text, so that nothing in a query can control the terminal from there.
-/

namespace SelectQuery.CommandLine

/-- A piece of output. -/
inductive Output where
  | out (text : String)
  | err (text : String)
  deriving DecidableEq, Repr

namespace Output

/-- A line on the output stream. -/
def outLine (text : String) : Output := out (text ++ "\n")

/-- A line on the error stream. -/
def errLine (text : String) : Output := err (text ++ "\n")

/-- A log record as a line of plain text; the further lines of a longer message are indented.
A control sequence that the message leaves open may take the end of the line with it. -/
def ofRecord (r : LogRecord) : Output :=
  let head := "[" ++ r.level.name ++ " " ++ r.target ++ "] "
  err (Text.plain (head ++ r.message.replace "\n" "\n    " ++ "\n"))

/-- Everything written to the output stream. -/
def stdout (outputs : List Output) : String :=
  .join (outputs.map fun
    | out text => text
    | err _ => "")

/-- Everything written to the error stream. -/
def stderr (outputs : List Output) : String :=
  .join (outputs.map fun
    | out _ => ""
    | err text => text)

end Output

end SelectQuery.CommandLine
