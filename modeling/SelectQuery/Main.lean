import SelectQuery.CommandLine.Run

/-!
# The program

Connects the command to the terminal and the file system. A session answers each line before
it reads the next.
-/

namespace SelectQuery.CommandLine

/-- Writes pieces of output in order, each to its stream. -/
def write (outputs : List Output) : IO Unit := do
  let stdout ← IO.getStdout
  let stderr ← IO.getStderr
  for output in outputs do
    match output with
    | .out text => stdout.putStr text
    | .err text => stderr.putStr text
  stdout.flush

/-- Reads the bytes of one line, up to the line feed or the end of the input. -/
partial def readLine (stdin : IO.FS.Stream) (line : ByteArray) : IO ByteArray := do
  let bytes ← stdin.read 1
  if bytes.isEmpty then return line
  else if bytes.toList = [10] then return line ++ bytes
  else readLine stdin (line ++ bytes)

/-- Holds a session with the terminal. -/
partial def converse (o : Options) (stdin : IO.FS.Stream) : IO Unit := do
  write [Session.prompt]
  let line ← readLine stdin .empty
  let (outputs, goesOn) :=
    Session.react o (if line.isEmpty then none else some (String.fromUTF8? line))
  write outputs
  if goesOn then converse o stdin

/-- Why the system could not read a file. What cannot be opened is named in the error; a
directory can be opened and fails when it is read. -/
def ReadFailure.ofError : IO.Error → ReadFailure
  | .noFileOrDirectory _ _ _ => .notFound
  | .inappropriateType (some _) _ _ => .notDirectory
  | .inappropriateType none _ _ => .isDirectory
  | .invalidArgument _ _ "name too long" => .nameTooLong
  | e => .other (toString e)

/-- Reads a file from the file system. -/
def readFile (path : String) : IO (Except ReadFailure ByteArray) := do
  try return .ok (← IO.FS.readBinFile path)
  catch e => return .error (.ofError e)

end SelectQuery.CommandLine

open SelectQuery.CommandLine in
/-- Runs the command with the arguments of the program. -/
def main (arguments : List String) : IO UInt32 := do
  match Request.ofArguments arguments with
  | .error e =>
    write [.errLine ("error: " ++ e.message), .errLine "\nFor more information, try '--help'."]
    return usageStatus.toUInt32
  | .ok (.process o none) =>
    write [.outLine Session.help]
    converse o (← IO.getStdin)
    return 0
  | .ok (.process o (some input)) =>
    let content ← if namesFile input then readFile input else pure (.error .notFound)
    let ending := evaluateInput o input fun _ ↦ content
    write ending.outputs
    return ending.status.toUInt32
  | .ok request =>
    let ending := request.run [] fun _ ↦ .error .notFound
    write ending.outputs
    return ending.status.toUInt32
