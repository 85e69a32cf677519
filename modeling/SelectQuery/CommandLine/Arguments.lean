import SelectQuery.Parser

/-!
# Arguments

The arguments of the command are read one by one. Options may stand before or behind the input;
`--` ends them. The first argument that cannot be read decides, and so does a request for help
or for the version, whatever comes after it.
-/

namespace SelectQuery.CommandLine

/-- How the command is to behave. -/
structure Options where
  showTokens : Bool
  showOutline : Bool
  verbose : Bool
  limit : Nat
  deriving DecidableEq, Repr

/-- What the command is asked to do. Without an input it holds a session. -/
inductive Request where
  | help
  | version
  | process (options : Options) (input? : Option String)
  deriving DecidableEq, Repr

/-- Why the arguments make no request. -/
inductive UsageError where
  | unknownOption (argument : String)
  | repeatedOption (argument : String)
  | unwantedValue (argument : String)
  | missingLimit
  | invalidLimit (value : String)
  | secondInput (argument : String)
  deriving DecidableEq, Repr

/-- The wording of a usage error. -/
def UsageError.message : UsageError → String
  | unknownOption a => "unexpected argument '" ++ a ++ "' found"
  | repeatedOption a => "the argument '" ++ a ++ "' cannot be used multiple times"
  | unwantedValue a => "unexpected value for '" ++ a ++ "' found; no more were expected"
  | missingLimit => "a value is required for '--max-depth <MAX_DEPTH>' but none was supplied"
  | invalidLimit v => "invalid value '" ++ v ++ "' for '--max-depth <MAX_DEPTH>'"
  | secondInput a => "unexpected argument '" ++ a ++ "' found"

/-- The largest limit that can be given. -/
def maxLimit : Nat := UInt64.size - 1

/-- The number that some digits write. -/
def digitsValue (digits : List Char) : Nat :=
  digits.foldl (fun n c ↦ 10 * n + (c.toNat - '0'.toNat)) 0

/-- A limit: decimal digits, with a plus sign in front or not, of at most `maxLimit`. -/
def readLimit? (value : String) : Option Nat :=
  let digits :=
    match value.toList with
    | '+' :: digits => digits
    | digits => digits
  if !digits.isEmpty && digits.all Char.isDigit && digitsValue digits ≤ maxLimit then
    some (digitsValue digits)
  else none

/-- An argument by its form: the end of the options, an option by name and the value attached to
it, one-letter options in a row, or an operand. A dash alone is an operand. -/
inductive Argument where
  | endOfOptions
  | long (name : String) (value? : Option String)
  | letters (letters : List Char)
  | operand (text : String)
  deriving DecidableEq, Repr

/-- The form of an argument. -/
def Argument.ofString (text : String) : Argument :=
  match text.toList with
  | ['-', '-'] => .endOfOptions
  | '-' :: '-' :: option =>
    let name := String.ofList (option.takeWhile (· != '='))
    match option.dropWhile (· != '=') with
    | _ :: value => .long name (some (.ofList value))
    | [] => .long name none
  | '-' :: c :: more => .letters (c :: more)
  | _ => .operand text

/-- What the arguments read so far have set. -/
structure Reading where
  tokens : Bool
  outline : Bool
  verbose : Bool
  limit? : Option Nat
  input? : Option String
  awaitingLimit : Bool
  onlyOperands : Bool
  deriving DecidableEq, Repr

/-- What one more argument leads to. -/
inductive Progress where
  | more (r : Reading)
  | done (request : Request)
  | failed (e : UsageError)
  deriving DecidableEq, Repr

namespace Reading

/-- No argument has been read. -/
def start : Reading := ⟨false, false, false, none, none, false, false⟩

/-- Takes the input, of which there is one. -/
def takeInput (r : Reading) (text : String) : Progress :=
  if r.input?.isSome then .failed (.secondInput text) else .more { r with input? := some text }

/-- Takes the value of the limit, which is given once. -/
def takeLimit (r : Reading) (value : String) : Progress :=
  if r.limit?.isSome then .failed (.repeatedOption "--max-depth")
  else
    match readLimit? value with
    | some n => .more { r with limit? := some n, awaitingLimit := false }
    | none => .failed (.invalidLimit value)

/-- Turns on the verbose log, once. -/
def takeVerbose (r : Reading) : Progress :=
  if r.verbose then .failed (.repeatedOption "--verbose") else .more { r with verbose := true }

/-- Takes one-letter options in order. -/
def takeLetters (r : Reading) : List Char → Progress
  | [] => .more r
  | 'h' :: _ => .done .help
  | 'V' :: _ => .done .version
  | 'v' :: letters =>
    match r.takeVerbose with
    | .more r => r.takeLetters letters
    | other => other
  | c :: _ => .failed (.unknownOption ("-" ++ c.toString))

/-- Takes an option by name. Only the limit has a value, attached or in the next argument. -/
def takeLong (r : Reading) (name : String) (value? : Option String) : Progress :=
  match name, value? with
  | "max-depth", some value => r.takeLimit value
  | "max-depth", none => .more { r with awaitingLimit := true }
  | "tokens", none =>
    if r.tokens then .failed (.repeatedOption "--tokens") else .more { r with tokens := true }
  | "ast", none =>
    if r.outline then .failed (.repeatedOption "--ast") else .more { r with outline := true }
  | "verbose", none => r.takeVerbose
  | "help", none => .done .help
  | "version", none => .done .version
  | name, some _ =>
    if ["tokens", "ast", "verbose", "help", "version"].contains name then
      .failed (.unwantedValue ("--" ++ name))
    else .failed (.unknownOption ("--" ++ name))
  | name, none => .failed (.unknownOption ("--" ++ name))

/-- Takes one more argument. A limit that is awaited cannot look like an option. -/
def take (r : Reading) (text : String) : Progress :=
  if r.awaitingLimit then
    match Argument.ofString text with
    | .operand value => r.takeLimit value
    | _ => .failed .missingLimit
  else if r.onlyOperands then r.takeInput text
  else
    match Argument.ofString text with
    | .endOfOptions => .more { r with onlyOperands := true }
    | .long name value? => r.takeLong name value?
    | .letters letters => r.takeLetters letters
    | .operand text => r.takeInput text

/-- The options that have been set. -/
def options (r : Reading) : Options :=
  ⟨r.tokens, r.outline, r.verbose, r.limit?.getD Parser.defaultLimit⟩

/-- The request that the arguments make. -/
def request (r : Reading) : List String → Except UsageError Request
  | [] => if r.awaitingLimit then .error .missingLimit else .ok (.process r.options r.input?)
  | text :: texts =>
    match r.take text with
    | .more r => r.request texts
    | .done request => .ok request
    | .failed e => .error e

end Reading

/-- The request that the arguments of the command make. -/
def Request.ofArguments (arguments : List String) : Except UsageError Request :=
  Reading.start.request arguments

end SelectQuery.CommandLine
