import SelectQuery.Proofs.Rejection
import SelectQuery.Proofs.Replacement

/-!
# Kinds of tokens

A parser is steered by the kinds of tokens and by nothing else about them. Without texts and places
tokens of the same kinds are the same (`Replacement.map_erased`), a run over them leads to the same
state, and so two sources with the same kinds of tokens are parsed alike: to statements of one
shape, or to one fault at the same token (`parseWithin_sameInKind`).
-/

namespace SelectQuery

/-- Every token is replaced by one of its kind that has neither text nor place. -/
def Replacement.erased : Replacement where
  token t := ⟨t.kind, "", ⟨0, 0⟩⟩
  place _ := 0
  kind_token _ := rfl
  span_token _ := rfl
  token_eof _ := rfl

/-- Tokens of the same kinds do not differ in anything else. -/
theorem Replacement.map_erased {tokens tokens' : List Token}
    (h : tokens.map Token.kind = tokens'.map Token.kind) :
    tokens.map erased.token = tokens'.map erased.token := by
  have hkind : erased.token = (fun k ↦ ⟨k, "", ⟨0, 0⟩⟩) ∘ Token.kind := rfl
  rw [hkind, ← List.map_map, h, List.map_map]

/-- The statement without the texts and places of its tokens, and so without the values of its names
and literals: its shape, its operators, and the kinds of its tokens. -/
def Statement.erased (s : Statement) : Statement := s.replace .erased

/-- The fault without the token that is shown where an operator is missing: what is wrong, with the
kind that is expected and the kind that is found. -/
def SyntaxFault.erased : SyntaxFault → SyntaxFault
  | missingComparison _ => missingComparison ""
  | fault => fault

/-- The results of parsing two lists of tokens agree in all that is not the text or the place of a
token. -/
inductive SameInKind (tokens tokens' : List Token) :
    Except ParseError Statement → Except ParseError Statement → Prop where
  | statement {s s' : Statement} : s.erased = s'.erased →
      SameInKind tokens tokens' (.ok s) (.ok s')
  | fault {e e' : SyntaxError} {front front' : List Token} {t t' : Token} :
      Token.Located tokens e.span front t → Token.Located tokens' e'.span front' t' →
      front.length = front'.length → e.fault.erased = e'.fault.erased →
      SameInKind tokens tokens' (.error (.syntactic e)) (.error (.syntactic e'))

/-- What is wrong with tokens of one kind is the same. -/
theorem Parser.Position.erased_fault_congr {t u : Token} (hkind : t.kind = u.kind) (limit : Nat)
    (p : Position) : (p.fault limit t).erased = (p.fault limit u).erased := by
  cases p with
  | operator opens => rfl
  | _ => simp only [fault, fault.expected, hkind]

/-- A lexical error is reported only where the tokens of the source end with it. -/
theorem ending_of_parseWithin {limit : Nat} {source : String} {e : LexError}
    (h : parseWithin limit source = .error (.lexical e)) :
    (Lexer.ofSource source).remaining.2 = .error e := by
  rw [parseWithin_eq_conclude] at h
  rcases Parser.State.conclude_eq_error h with
    ⟨front, t, rest, s, -, -, -, he⟩ | ⟨s, offset, -, -, -, he⟩ | ⟨s, e', -, hending, he⟩
  · cases he
  · cases he
  · rw [hending, ParseError.lexical.inj he]

/-- All tokens of a source are yielded. -/
theorem yielded_of_tokenize {source : String} {tokens : List Token}
    (h : tokenize source = .ok tokens) : (Lexer.ofSource source).yielded = (tokens, none) := by
  obtain ⟨offset, hending, rfl⟩ := tokenize_eq_ok_iff.mp h
  unfold Lexer.yielded
  generalize (Lexer.ofSource source).remaining = remaining at *
  obtain ⟨tokens, ending⟩ := remaining
  obtain rfl : ending = .ok offset := hending
  rfl

section

variable {source source' : String} {tokens tokens' : List Token}

private theorem exists_statement (h : tokenize source = .ok tokens)
    (h' : tokenize source' = .ok tokens')
    (hkinds : tokens.map Token.kind = tokens'.map Token.kind) {limit : Nat} {s : Statement}
    (hs : parseWithin limit source = .ok s) :
    ∃ s', parseWithin limit source' = .ok s' ∧ s'.erased = s.erased := by
  obtain ⟨offset, hending, rfl⟩ := tokenize_eq_ok_iff.mp h
  obtain ⟨offset', hending', rfl⟩ := tokenize_eq_ok_iff.mp h'
  have hremaining : (Lexer.ofSource source).remaining.1.map Token.kind =
      (Lexer.ofSource source').remaining.1.map Token.kind := by
    rw [List.map_append, List.map_append] at hkinds
    exact (List.append_inj' hkinds rfl).1
  have hrun := (parseWithin_iff_of_map_token .erased (Replacement.map_erased hremaining) hending
    limit s.erased).mp ⟨s, hs, rfl⟩
  exact (parseWithin_iff_of_map_token .erased rfl hending' limit s.erased).mpr hrun

private theorem exists_fault (h : tokenize source = .ok tokens)
    (h' : tokenize source' = .ok tokens')
    (hkinds : tokens.map Token.kind = tokens'.map Token.kind) {limit : Nat} {e : SyntaxError}
    (he : parseWithin limit source = .error (.syntactic e)) :
    ∃ e', parseWithin limit source' = .error (.syntactic e') ∧
      SameInKind tokens tokens' (.error (.syntactic e)) (.error (.syntactic e')) := by
  obtain ⟨front, t, behind, p, hyielded, hrun, hstep, rfl⟩ := parseWithin_eq_syntactic_iff.mp he
  have hlocated := Lexer.located_yielded hyielded
  rw [yielded_of_tokenize h] at hyielded hlocated
  obtain rfl : tokens = front ++ t :: behind := hyielded
  rw [List.map_append, List.map_cons, eq_comm, List.map_eq_append_iff] at hkinds
  obtain ⟨front', others, rfl, hfront, hothers⟩ := hkinds
  obtain ⟨t', behind', rfl, ht, -⟩ := List.map_eq_cons_iff.mp hothers
  have hyielded' : (Lexer.ofSource source').yielded.1 = front' ++ t' :: behind' := by
    rw [yielded_of_tokenize h']
  have hlocated' := Lexer.located_yielded hyielded'
  rw [yielded_of_tokenize h'] at hlocated'
  refine ⟨⟨p.fault limit t', t'.span⟩, parseWithin_eq_syntactic_iff.mpr
    ⟨front', t', behind', p, hyielded', by rwa [hfront], by rwa [ht], rfl⟩,
    .fault hlocated hlocated' ?_ (p.erased_fault_congr ht.symm limit)⟩
  have hlength := congrArg List.length hfront
  rw [List.length_map, List.length_map] at hlength
  exact hlength.symm

/-- Sources whose tokens are of the same kinds are parsed alike under every limit, whatever their
words, numbers, strings and blanks are: either to statements that agree without texts and places,
or to one fault at the tokens of one index. -/
theorem parseWithin_sameInKind (h : tokenize source = .ok tokens)
    (h' : tokenize source' = .ok tokens')
    (hkinds : tokens.map Token.kind = tokens'.map Token.kind) (limit : Nat) :
    SameInKind tokens tokens' (parseWithin limit source) (parseWithin limit source') := by
  cases hresult : parseWithin limit source with
  | ok s =>
    obtain ⟨s', hs', herased⟩ := exists_statement h h' hkinds hresult
    rw [hs']
    exact .statement herased.symm
  | error err =>
    cases err with
    | syntactic e =>
      obtain ⟨e', he', hsame⟩ := exists_fault h h' hkinds hresult
      rw [he']
      exact hsame
    | lexical e =>
      -- A source that can be split into tokens has no lexical error.
      obtain ⟨offset, hending, -⟩ := tokenize_eq_ok_iff.mp h
      rw [ending_of_parseWithin hresult] at hending
      cases hending

end

/-- A statement with a string and a negation. -/
def negatedBehindString : String := "SELECT a FROM t WHERE b = \"x\" OR NOT c < 10;"

/-- The same kinds of tokens, with other words, another string and other blanks. -/
def negatedBehindStringRespelled : String :=
  "SELECT  name\nFROM people WHERE id=\"é); OR\" OR NOT _1 < 0 ;"

/-- The kinds of names without an operator, with other names and blanks. -/
def namesWithoutOperatorRespelled : String := "SELECT name FROM people\nWHERE id id2 ;"

/-- What looks like the end of the statement inside a string does not count; and where an operator
is missing, it is missing at the same token, which alone is shown otherwise. -/
theorem parseWithin_sameInKind_respelled :
    (∃ tokens tokens', tokenize negatedBehindString = .ok tokens ∧
      tokenize negatedBehindStringRespelled = .ok tokens' ∧
      tokens.map Token.kind = tokens'.map Token.kind ∧
      SameInKind tokens tokens' (parseWithin 2 negatedBehindString)
        (parseWithin 2 negatedBehindStringRespelled) ∧
      (parseWithin 2 negatedBehindString).isOk) ∧
    ∃ tokens tokens', tokenize namesWithoutOperator = .ok tokens ∧
      tokenize namesWithoutOperatorRespelled = .ok tokens' ∧
      tokens.map Token.kind = tokens'.map Token.kind ∧
      SameInKind tokens tokens'
        (.error (.syntactic ⟨.missingComparison "Token(IDENTIFIER, b)[24,25]", ⟨24, 25⟩⟩))
        (.error (.syntactic ⟨.missingComparison "Token(IDENTIFIER, id2)[33,36]", ⟨33, 36⟩⟩)) := by
  constructor
  · have h : tokenize negatedBehindString = .ok (Lexer.ofSource negatedBehindString).yielded.1 := by
      decide +kernel
    have h' : tokenize negatedBehindStringRespelled =
        .ok (Lexer.ofSource negatedBehindStringRespelled).yielded.1 := by decide +kernel
    exact ⟨_, _, h, h', by decide +kernel, parseWithin_sameInKind h h' (by decide +kernel) 2,
      by decide +kernel⟩
  · have h : tokenize namesWithoutOperator =
        .ok (Lexer.ofSource namesWithoutOperator).yielded.1 := by decide +kernel
    have h' : tokenize namesWithoutOperatorRespelled =
        .ok (Lexer.ofSource namesWithoutOperatorRespelled).yielded.1 := by decide +kernel
    have hkinds : (Lexer.ofSource namesWithoutOperator).yielded.1.map Token.kind =
        (Lexer.ofSource namesWithoutOperatorRespelled).yielded.1.map Token.kind := by
      decide +kernel
    have hresult : parseWithin 1 namesWithoutOperator =
        .error (.syntactic ⟨.missingComparison "Token(IDENTIFIER, b)[24,25]", ⟨24, 25⟩⟩) := by
      decide +kernel
    have hresult' : parseWithin 1 namesWithoutOperatorRespelled =
        .error (.syntactic ⟨.missingComparison "Token(IDENTIFIER, id2)[33,36]", ⟨33, 36⟩⟩) := by
      decide +kernel
    have hsame := parseWithin_sameInKind h h' hkinds 1
    rw [hresult, hresult'] at hsame
    exact ⟨_, _, h, h', hkinds, hsame⟩

end SelectQuery
