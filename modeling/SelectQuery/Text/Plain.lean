/-!
# Plain text

A text without control characters and without the control sequences that move the cursor of a
terminal, colour its text or set its title. Reading is a `ControlState` that knows how far a
sequence has come.
-/

namespace SelectQuery.Text

/-- Whether a character lies between two others, both included. -/
def between (first last c : Char) : Bool := first ≤ c && c ≤ last

/-- The control characters that lay text out: tab, line feed, form feed and carriage return. -/
def isLayout (c : Char) : Bool :=
  c = '\t' || c = '\n' || c = '\x0c' || c = '\r'

/-- Whether a character belongs to plain text: all but the control characters of ASCII, of
which those that lay text out belong to it as well. -/
def isPlain (c : Char) : Bool :=
  between ' ' '~' c || '\x7f' < c || isLayout c

/-- Whether a character ends a control string. The terminator is a single byte, which ends the
string as well where it stands inside the encoding of a character. -/
def endsControlString (c : Char) : Bool :=
  '\x7f' < c && (String.utf8EncodeChar c).contains 0x9c

/-- How far a control sequence has come. -/
inductive ControlState where
  /-- No sequence has begun. -/
  | text
  /-- The escape character. -/
  | escape
  /-- The escape character and intermediate characters. -/
  | escapeIntermediate
  /-- The opener of a sequence with parameters. -/
  | sequence
  /-- The opener of a device control. -/
  | device
  /-- A device control and its parameters. -/
  | deviceParameters
  /-- A device control and intermediate characters. -/
  | deviceIntermediate
  /-- The opener of a string of any kind but a system command. -/
  | controlString
  /-- The opener of a system command. -/
  | command
  deriving DecidableEq, Repr

namespace ControlState

/-- The state after one more character. The escape character begins a sequence anew, and two
control characters cancel it. -/
def next (s : ControlState) (c : Char) : ControlState :=
  if c = '\x1b' then escape
  else if c = '\x18' || c = '\x1a' then text
  else
    match s with
    | text => text
    | escape =>
      if c = '[' then sequence
      else if c = ']' then command
      else if c = 'P' then device
      else if c = 'X' || c = '^' || c = '_' then controlString
      else if between ' ' '/' c then escapeIntermediate
      else if between '0' '~' c then text
      else escape
    | escapeIntermediate => if between '0' '~' c then text else escapeIntermediate
    | sequence => if between '@' '~' c then text else sequence
    | device =>
      if between ' ' '/' c then deviceIntermediate
      else if between '0' '?' c then deviceParameters
      else if between '@' '~' c then controlString
      else device
    | deviceParameters =>
      if between ' ' '/' c then deviceIntermediate
      else if between '<' '~' c then controlString
      else deviceParameters
    | deviceIntermediate => if between '0' '~' c then controlString else deviceIntermediate
    | controlString => if endsControlString c then text else controlString
    | command => if c = '\x07' then text else command

/-- Whether a character is kept. What lays text out is kept inside a sequence also, but not
inside a string. -/
def keeps (s : ControlState) (c : Char) : Bool :=
  match s with
  | text => isPlain c
  | escape | escapeIntermediate | sequence => isLayout c
  | device | deviceParameters | deviceIntermediate | controlString | command => false

end ControlState

/-- How far a text has been read: the state of the sequence, whether the last character was
kept, and the characters kept, newest first. -/
structure PlainReading where
  state : ControlState
  copying : Bool
  kept : List Char
  deriving DecidableEq, Repr

namespace PlainReading

/-- Takes one more character. Behind a character that is kept, plain text is copied even if a
sequence is unfinished; the next control character takes the sequence up again, unless a
character outside ASCII has ended it. -/
def take (r : PlainReading) (c : Char) : PlainReading :=
  if r.copying && isPlain c then
    ⟨if '\x7f' < c then .text else r.state, true, c :: r.kept⟩
  else if r.state.keeps c then ⟨r.state.next c, true, c :: r.kept⟩
  else ⟨r.state.next c, false, r.kept⟩

end PlainReading

/-- A text without its control characters and control sequences. -/
def plain (text : String) : String :=
  .ofList (text.toList.foldl PlainReading.take ⟨.text, false, []⟩).kept.reverse

end SelectQuery.Text
