import SelectQuery.Span

/-!
# Tokens

The closed set of token kinds with their names, the keyword table, and tokens: a kind, a
text and the span of the source that the token covers.
-/

namespace SelectQuery

/-- What a token is, whatever its text. -/
inductive TokenKind where
  | selectKw
  | fromKw
  | whereKw
  | andKw
  | orKw
  | notKw
  | asKw
  | identifier
  | number
  | string
  | comma
  | equal
  | notEqual
  | less
  | lessEqual
  | greater
  | greaterEqual
  | star
  | leftParen
  | rightParen
  | semicolon
  | eof
  deriving DecidableEq, Repr

namespace TokenKind

/-- The name under which messages and tables show a kind. -/
def name : TokenKind → String
  | selectKw => "SELECT"
  | fromKw => "FROM"
  | whereKw => "WHERE"
  | andKw => "AND"
  | orKw => "OR"
  | notKw => "NOT"
  | asKw => "AS"
  | identifier => "IDENTIFIER"
  | number => "NUMBER"
  | string => "STRING"
  | comma => "COMMA"
  | equal => "EQUAL"
  | notEqual => "NOT_EQUAL"
  | less => "LT"
  | lessEqual => "LT_EQUAL"
  | greater => "GT"
  | greaterEqual => "GT_EQUAL"
  | star => "MULT"
  | leftParen => "L_PAREN"
  | rightParen => "R_PAREN"
  | semicolon => "SEMICOLON"
  | eof => "EOF"

/-- Every kind, once. -/
def all : List TokenKind :=
  [selectKw, fromKw, whereKw, andKw, orKw, notKw, asKw, identifier, number, string, comma,
    equal, notEqual, less, lessEqual, greater, greaterEqual, star, leftParen, rightParen,
    semicolon, eof]

/-- The list of kinds is complete. -/
theorem mem_all (k : TokenKind) : k ∈ all := by
  cases k <;> decide

/-- The kind with a given name. -/
def ofName? (name : String) : Option TokenKind :=
  all.find? (·.name == name)

/-- The keyword that a word spells. Keywords are upper case: `select` is an ordinary word. -/
def keyword? : String → Option TokenKind
  | "SELECT" => some selectKw
  | "FROM" => some fromKw
  | "WHERE" => some whereKw
  | "AND" => some andKw
  | "OR" => some orKw
  | "NOT" => some notKw
  | "AS" => some asKw
  | _ => none

/-- The kind of a word: its keyword if it spells one, else an identifier. -/
def ofWord (word : String) : TokenKind :=
  (keyword? word).getD identifier

/-- Kinds are shown by name. -/
instance : ToString TokenKind := ⟨name⟩

end TokenKind

/-- A token: its kind, its text and the span of the source it covers. The span need not be as
long as the text, since an unterminated string literal gains a closing quote. -/
structure Token where
  kind : TokenKind
  text : String
  span : Span
  deriving DecidableEq, Repr

namespace Token

/-- A token whose span is exactly as long as its text. -/
def ofText (kind : TokenKind) (text : String) (start : Nat) : Token :=
  ⟨kind, text, .ofSize start text.utf8ByteSize⟩

/-- The token that stands at the end of a source of `offset` bytes. -/
def eof (offset : Nat) : Token :=
  ⟨.eof, "", ⟨offset, offset⟩⟩

/-- A token is shown with its kind, its text as it is, and its span. -/
instance : ToString Token where
  toString t := "Token(" ++ toString t.kind ++ ", " ++ t.text ++ ")" ++ toString t.span

end Token

end SelectQuery
