import SelectQuery.Lexer
import SelectQuery.Log
import SelectQuery.Parser.State

/-!
# Parsing

A `Parser` reads one token ahead: it holds the current token and the lexer behind it. A run
offers the current token to the state; a token that is taken is consumed, which first reads the
token after it. So a syntax error at a token comes before a lexical error behind it, and a
lexical error right behind a token comes before the token is consumed. A run that fails leaves
the parser at the token where it stands, and the next run starts there.
-/

namespace SelectQuery

/-- A parser: how many expressions may be open at once, the current token, and the lexer that
reads the tokens behind it. -/
structure Parser where
  limit : Nat
  current : Token
  lexer : Lexer
  deriving DecidableEq, Repr

namespace Parser

/-- How many expressions may be open at once unless a limit is given. -/
def defaultLimit : Nat := 128

/-- A parser that starts at the lexer's next token, or the error that is met there. -/
def ofLexer (limit : Nat) (lexer : Lexer) : Except LexError Parser :=
  match lexer.next with
  | (.ok t, lexer) => .ok ⟨limit, t, lexer⟩
  | (.error e, _) => .error e

/-- Moves on by one token, or meets a lexical error. -/
def advance (p : Parser) : Except LexError Parser :=
  ofLexer p.limit p.lexer

/-- A parser that has met a lexical error behind its token keeps the token. Its lexer has looked for
the next one. -/
def halt (p : Parser) : Parser :=
  { p with lexer := p.lexer.next.2 }

/-- How much a parser has still to read: the characters behind the current token, and that token
unless it is the last. -/
def unread (p : Parser) : Nat :=
  p.lexer.rest.length + if p.current.kind = .eof then 0 else 1

/-- Moving on from a token leaves less to read. -/
theorem unread_lt_of_advance {p q : Parser} (hp : p.current.kind ≠ .eof)
    (h : p.advance = .ok q) : q.unread < p.unread := by
  unfold advance ofLexer Lexer.next at h
  cases hs : Lexer.scan p.lexer.offset p.lexer.rest with
  | failed e => simp [hs] at h
  | atEnd offset =>
    simp only [hs, Except.ok.injEq] at h
    subst h
    have hle := Lexer.length_skipBlanks_le p.lexer
    simp only [unread, Token.eof, hp, ite_true, ite_false]
    omega
  | token t rest offset =>
    simp only [hs, Except.ok.injEq] at h
    subst h
    have hlt := Lexer.length_lt_of_scan hs
    simp only [unread, hp, ite_false]
    split <;> omega

/-- What a run leaves: its result, the parser where it stands, and the events in order. -/
structure Outcome where
  result : Except ParseError Statement
  parser : Parser
  log : List Event

/-- The events of consuming a token: the token behind it is read first. The token that opens a
statement is reported once more after that. -/
def consumption (s : State) (t behind : Token) : List Event :=
  Event.ofRead behind ++ .consumed t ::
    match s with
    | .start => [.started t.span]
    | _ => []

/-- Runs from a state until the statement is complete or something is wrong. `log` holds the
events so far, newest first. -/
def run (p : Parser) (s : State) (log : List Event) : Outcome :=
  if _he : p.current.kind = .eof then
    match s with
    | .complete statement => ⟨.ok statement, p, (.finished statement :: log).reverse⟩
    | s => ⟨.error (.syntactic ⟨s.fault p.limit p.current, p.current.span⟩), p, log.reverse⟩
  else
    match s.step? p.limit p.current with
    | none => ⟨.error (.syntactic ⟨s.fault p.limit p.current, p.current.span⟩), p, log.reverse⟩
    | some s' =>
      match _h : p.advance with
      | .error e => ⟨.error (.lexical e), p.halt, log.reverse⟩
      | .ok q => q.run s' ((consumption s p.current q.current).reverse ++ log)
termination_by p.unread
decreasing_by exact unread_lt_of_advance _he _h

/-- Parses one statement from the current token on. -/
def parse (p : Parser) : Outcome := p.run .start []

/-- Parses one statement `n` times over, each run starting where the last one stopped. -/
def parseRepeatedly (p : Parser) : Nat → List (Except ParseError Statement)
  | 0 => []
  | n + 1 => p.parse.result :: p.parse.parser.parseRepeatedly n

end Parser

/-- Parses a source with a limit on nesting, and says what was read and consumed. -/
def parseLogged (limit : Nat) (source : String) : Except ParseError Statement × List Event :=
  match Parser.ofLexer limit (.ofSource source) with
  | .error e => (.error (.lexical e), [])
  | .ok p =>
    let outcome := p.parse
    (outcome.result, Event.ofRead p.current ++ outcome.log)

/-- The statement that a source holds, if no more than `limit` expressions are open at once. -/
def parseWithin (limit : Nat) (source : String) : Except ParseError Statement :=
  (parseLogged limit source).1

/-- The statement that a source holds, under the default limit on nesting. -/
def parse (source : String) : Except ParseError Statement :=
  parseWithin Parser.defaultLimit source

/-- Every token of a source, and what was read on the way. -/
def tokenizeLogged (source : String) : Except LexError (List Token) × List Event :=
  (tokenize source, (Lexer.ofSource source).remaining.1.map .lexed)

end SelectQuery
