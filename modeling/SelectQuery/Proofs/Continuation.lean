import SelectQuery.Proofs.Rejection

/-!
# Continuations

What a syntax error says could have come in place of the token that it rejects. A position takes
exactly the kinds with which the tokens in front of it can be gone on with
(`Grammar.viable_concat_iff`), so that what is said there can be compared with what is taken there
(`Parser.Position.truthful_fault`). Where one kind is named, it is one of those that can come; where
a class of kinds is named, they are all that can come (`fault_truthful`).
-/

namespace SelectQuery

namespace Opener

/-- Closing ends everything if no parenthesis is open. -/
theorem endNegations_eq_nil_iff {opens : List Opener} :
    endNegations opens = [] ↔ .paren ∉ opens := by
  induction opens with
  | nil => simp
  | cons o opens ih => cases o <;> simp [ih]

end Opener

/-- The last token is taken where the others lead. -/
theorem Parser.Position.run?_concat (p : Position) (kinds : List TokenKind) (k : TokenKind) :
    p.run? (kinds ++ [k]) = (p.run? kinds).bind fun q ↦ q.step? k := by
  simp [run?_append]

namespace Grammar

/-- The kinds listed are exactly those that can come behind tokens of the given kinds. -/
def ContinuedBy (kinds next : List TokenKind) : Prop := ∀ k, Viable (kinds ++ [k]) ↔ k ∈ next

/-- The kinds that a position takes are those that can come there. -/
theorem viable_concat_iff {kinds : List TokenKind} {p : Parser.Position}
    (h : Parser.Position.start.run? kinds = some p) {k : TokenKind} :
    Viable (kinds ++ [k]) ↔ (p.step? k).isSome = true := by
  rw [viable_iff, Parser.Position.run?_concat, h, Option.bind_some, Option.isSome_iff_exists]

end Grammar

/-- What the fault says could come behind tokens of the given kinds can come there: the kind that is
named, or exactly the kinds of the class that is named. -/
def SyntaxFault.Truthful (kinds : List TokenKind) : SyntaxFault → Prop
  | unexpectedToken expected _ =>
    ∃ k : TokenKind, expected = k.name ∧ Grammar.Viable (kinds ++ [k])
  | unrecognizedOperand _ => Grammar.ContinuedBy kinds [.number, .identifier, .string]
  | unrecognizedCondition _ =>
    Grammar.ContinuedBy kinds [.number, .identifier, .string, .leftParen, .notKw]
  | missingComparison _ =>
    Grammar.ContinuedBy kinds [.equal, .notEqual, .less, .lessEqual, .greater, .greaterEqual]
  | missingStatement _ => kinds = [] ∧ Grammar.ContinuedBy kinds [.selectKw]
  | nestedTooDeeply => True

namespace Parser.Position

/-- Nothing leads back to the beginning. -/
theorem step?_ne_start (p : Position) (k : TokenKind) : p.step? k ≠ some start := by
  intro h
  cases p with
  | conditionEnd opens =>
    have hstep : endCondition? opens k = some start := h
    unfold endCondition? at hstep
    repeat' split at hstep
    all_goals cases hstep
  | _ => cases k <;> simp_all [step?, beginCondition?, ComparisonOperator.ofKind?]

/-- A statement begins only where nothing has been read. -/
theorem eq_nil_of_run?_eq_start {kinds : List TokenKind} (h : start.run? kinds = some start) :
    kinds = [] := by
  rcases List.eq_nil_or_concat' kinds with hnil | ⟨kinds', k, rfl⟩
  · exact hnil
  · rw [run?_concat] at h
    obtain ⟨p, -, hstep⟩ := Option.bind_eq_some_iff.mp h
    exact absurd hstep (step?_ne_start p k)

private theorem isSome_step?_conditionEnd (opens : List Opener) :
    ((conditionEnd opens).step? (if .paren ∈ opens then .rightParen else .semicolon)).isSome =
      true := by
  split
  next hparen =>
    cases ho : Opener.endNegations opens with
    | nil => exact absurd hparen (Opener.endNegations_eq_nil_iff.mp ho)
    | cons o opens' => simp [step?, endCondition?, ho]
  next hparen =>
    simp [step?, endCondition?, Opener.endNegations_eq_nil_iff.mpr hparen]

/-- The fault of a position tells what can come there, unless the source has ended. -/
theorem truthful_fault {kinds : List TokenKind} {p : Position} (h : start.run? kinds = some p)
    (heof : .eof ∉ kinds) (limit : Nat) (t : Token) : (p.fault limit t).Truthful kinds := by
  have hexpected {k : TokenKind} (hk : (p.step? k).isSome = true) :
      (fault.expected t k).Truthful kinds := ⟨k, rfl, (Grammar.viable_concat_iff h).mpr hk⟩
  have hcontinued {next : List TokenKind} (hnext : ∀ k, (p.step? k).isSome = true ↔ k ∈ next) :
      Grammar.ContinuedBy kinds next := fun k ↦ (Grammar.viable_concat_iff h).trans (hnext k)
  cases p with
  | start => exact ⟨eq_nil_of_run?_eq_start h, hcontinued fun k ↦ by cases k <;> simp [step?]⟩
  | projection | wildcard | column | columnName | columnAlias | columnEnd | table | tableName
  | complete => exact hexpected rfl
  | expression opens =>
    simp only [fault]
    split
    next => exact hcontinued fun k ↦ by cases k <;> simp [step?, beginCondition?]
    next => trivial
  | condition opens => exact hcontinued fun k ↦ by cases k <;> simp [step?, beginCondition?]
  | operator opens =>
    exact hcontinued fun k ↦ by cases k <;> simp [step?, ComparisonOperator.ofKind?]
  | operand opens => exact hcontinued fun k ↦ by cases k <;> simp [step?]
  | conditionEnd opens => exact hexpected (isSome_step?_conditionEnd opens)
  | ended =>
    obtain ⟨kinds', rfl, -⟩ := exists_of_run?_eq_ended (by simp) h
    simp at heof

/-- A limit that is kept is not what is wrong. -/
theorem keeps_of_fault_ne {limit : Nat} {p : Position} {t : Token}
    (h : p.fault limit t ≠ .nestedTooDeeply) : p.keeps limit = true := by
  cases p with
  | expression opens =>
    by_contra hkeeps
    exact h (if_neg hkeeps)
  | _ => rfl

end Parser.Position

/-- What a syntax error says could have come in place of the token that it rejects is true, and a
token of the kind rejected could not have come, unless the limit on nesting is all that is wrong. -/
theorem fault_truthful {limit : Nat} {source : String} {e : SyntaxError}
    (h : parseWithin limit source = .error (.syntactic e)) :
    ∃ front t, Token.Located (Lexer.ofSource source).yielded.1 e.span front t ∧
      e.fault.Truthful (front.map Token.kind) ∧
      (e.fault ≠ .nestedTooDeeply → ¬ Grammar.Viable (front.map Token.kind ++ [t.kind])) := by
  obtain ⟨front, t, behind, p, hyielded, hrun, hstep, rfl⟩ := parseWithin_eq_syntactic_iff.mp h
  have hrun := Parser.Position.run?_of_runWithin? hrun
  have heof : .eof ∉ front.map Token.kind := by
    simpa using Lexer.kind_ne_eof_of_yielded hyielded
  refine ⟨front, t, Lexer.located_yielded hyielded,
    Parser.Position.truthful_fault hrun heof limit t, fun hfault ↦ ?_⟩
  rw [Parser.Position.stepWithin?, if_pos (Parser.Position.keeps_of_fault_ne hfault)] at hstep
  simp [Grammar.viable_concat_iff hrun, hstep]

/-- A semicolon in parentheses, behind a negation of their own. -/
def semicolonInParens : String := "SELECT a FROM t WHERE NOT (a = 1 AND NOT b = 2;"

/-- An operator of the wrong sort behind the first name in parentheses. -/
def orWithoutComparison : String := "SELECT a FROM t WHERE NOT (b OR c = 1);"

/-- The parenthesis can close where the semicolon cannot come; behind the name come the operators of
comparisons and nothing else. -/
theorem fault_truthful_parens :
    (∃ front t, Token.Located (Lexer.ofSource semicolonInParens).yielded.1 ⟨46, 47⟩ front t ∧
      parseWithin 4 semicolonInParens =
        .error (.syntactic ⟨.unexpectedToken "R_PAREN" "SEMICOLON", ⟨46, 47⟩⟩) ∧
      (∃ k : TokenKind, "R_PAREN" = k.name ∧ Grammar.Viable (front.map Token.kind ++ [k])) ∧
      ¬ Grammar.Viable (front.map Token.kind ++ [t.kind])) ∧
    ∃ front t, Token.Located (Lexer.ofSource orWithoutComparison).yielded.1 ⟨29, 31⟩ front t ∧
      parseWithin 3 orWithoutComparison =
        .error (.syntactic ⟨.missingComparison "Token(OR, OR)[29,31]", ⟨29, 31⟩⟩) ∧
      Grammar.ContinuedBy (front.map Token.kind)
        [.equal, .notEqual, .less, .lessEqual, .greater, .greaterEqual] ∧
      ¬ Grammar.Viable (front.map Token.kind ++ [t.kind]) := by
  constructor
  · have h : parseWithin 4 semicolonInParens =
        .error (.syntactic ⟨.unexpectedToken "R_PAREN" "SEMICOLON", ⟨46, 47⟩⟩) := by
      decide +kernel
    obtain ⟨front, t, hlocated, htruthful, hrejected⟩ := fault_truthful h
    exact ⟨front, t, hlocated, h, htruthful, hrejected (by simp)⟩
  · have h : parseWithin 3 orWithoutComparison =
        .error (.syntactic ⟨.missingComparison "Token(OR, OR)[29,31]", ⟨29, 31⟩⟩) := by
      decide +kernel
    obtain ⟨front, t, hlocated, htruthful, hrejected⟩ := fault_truthful h
    exact ⟨front, t, hlocated, h, htruthful, hrejected (by simp)⟩

end SelectQuery
