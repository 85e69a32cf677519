import SelectQuery.CommandLine.Evaluation
import SelectQuery.Text.LowerCase
import SelectQuery.Text.WhiteSpace

/-!
# Sessions

A session reads lines and answers each of them on its own: with what the line asks for as a
command, or with the evaluation of the line as a query. It ends at a line that says so, at a
line that is not valid text, or at the end of the input.
-/

namespace SelectQuery.CommandLine

/-- What a line of a session asks for. -/
inductive Entry where
  | blank
  | leave
  | help
  | demo
  | tokens (query : String)
  | unrecognised
  | query (text : String)
  deriving DecidableEq, Repr

namespace Entry

/-- What a command asks for. The command is the first word, however it is capitalised; only
`.tokens` takes heed of the rest. -/
def ofCommand (text : String) : Entry :=
  let (word, rest) := Text.splitWord text
  let command := Text.lower word
  if command = ".exit" || command = ".quit" then leave
  else if command = ".help" || command = ".h" || command = ".?" then help
  else if command = ".demo" then demo
  else if command = ".tokens" && !rest.isEmpty then tokens rest
  else unrecognised

/-- What a line asks for. A trimmed line that begins with a dot is a command. -/
def ofLine (line : String) : Entry :=
  let text := Text.trim line
  match text.toList with
  | [] => blank
  | '.' :: _ => ofCommand text
  | _ => query text

end Entry

namespace Session

/-- What a session says about itself. -/
def help : String :=
  .intercalate "\n"
    ["Enter a statement such as `SELECT a, b AS c FROM t WHERE a > 1;`",
      "Meta commands:",
      "  .tokens <query>   print the token stream of a query",
      "  .demo             parse the demonstration query",
      "  .help             show this message",
      "  .exit             leave the REPL"]

/-- The query that `.demo` evaluates. -/
def demoQuery : String :=
  .join
    ["\nSELECT\n  productId,\n  productType AS type,\n  sellerName AS seller\n",
      "FROM connections\nWHERE\n",
      "  saleCount > 1000 AND (totalViews > 10000 OR reviewCount > 100)\n;\n"]

/-- What is written before a line is read. -/
def prompt : Output := .out "> "

/-- The answer to a line. An error of `.tokens` goes to the output stream. -/
def respond (o : Options) : Entry → List Output
  | .blank => []
  | .leave => [.outLine "Goodbye."]
  | .help => [.outLine help]
  | .demo => o.answer demoQuery
  | .tokens query =>
    match tokenize query with
    | .ok tokens => [.outLine (tokenTable tokens)]
    | .error e => [.outLine (ParseError.lexical e).message]
  | .unrecognised => [.outLine "Error! Command not recognised. Try .help"]
  | .query text => o.answer text

/-- The answer to one read of the input, which gives a line, `none` where the line is not valid
text, or nothing at the end; and whether the session goes on. -/
def react (o : Options) : Option (Option String) → List Output × Bool
  | none => ([.outLine ""], false)
  | some none =>
    (o.log [⟨.error, "selectql::repl",
      "Failed to read input: " ++ ReadFailure.invalidText.message⟩], false)
  | some (some line) =>
    let entry := Entry.ofLine line
    (respond o entry, entry ≠ .leave)

/-- What a session writes while it reads some lines. -/
def loop (o : Options) : List (Option String) → List Output
  | [] => prompt :: (react o none).1
  | line :: lines =>
    let (outputs, goesOn) := react o (some line)
    prompt :: outputs ++ if goesOn then loop o lines else []

/-- What a session writes, from its first words on. -/
def run (o : Options) (lines : List (Option String)) : List Output :=
  .outLine help :: loop o lines

end Session

/-- The lines of an input, each with the line feed that ends it. The last line may lack one. -/
def byteLines (bytes : List UInt8) : List (List UInt8) :=
  match bytes with
  | [] => []
  | b :: bs =>
    match _h : (b :: bs).dropWhile (· != 10) with
    | [] => [b :: bs]
    | feed :: rest => ((b :: bs).takeWhile (· != 10) ++ [feed]) :: byteLines rest
termination_by bytes.length
decreasing_by
  have hle := (List.dropWhile_sublist (l := b :: bs) (· != 10)).length_le
  rw [_h] at hle
  exact hle

/-- The lines of an input as text; `none` stands for a line that is not valid UTF-8. -/
def textLines (input : ByteArray) : List (Option String) :=
  (byteLines input.toList).map fun line ↦ String.fromUTF8? line.toByteArray

end SelectQuery.CommandLine
