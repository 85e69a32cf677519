import SelectQuery.Proofs.Counter

/-!
# Statements by recursive descent

What precedes the condition of a statement is read by the procedures of the descent as the states
read it (`conclude_start`). With what holds of a clause, a source is parsed as the whole descent
reads its tokens when all levels are left (`parseWithin_eq_statement`), and behind any statement and
any error all levels are left again (`statement_snd`).
-/

namespace SelectQuery.Parser

namespace Descent

section

variable {β : Type} {kind : TokenKind} {tokens : List Token} {infront : β}

/-- A token of the kind comes next, or none does. -/
theorem exists_cons_or_ne (kind : TokenKind) (tokens : List Token) :
    (∃ t rest, tokens = t :: rest ∧ t.kind = kind) ∨ ∀ t ∈ tokens.head?, t.kind ≠ kind := by
  cases tokens with
  | nil => exact .inr (by simp)
  | cons t rest =>
    by_cases hk : t.kind = kind
    · exact .inl ⟨t, rest, rfl, hk⟩
    · exact .inr (by simpa using hk)

/-- A token of the kind is passed. -/
theorem peek_cons {t : Token} {rest : List Token} (hk : t.kind = kind)
    {behind : (u : Token) → (rest' : List Token) → rest'.length < (t :: rest).length → β} :
    peek kind (t :: rest) behind infront = behind t rest (Nat.lt_succ_self _) :=
  if_pos hk

/-- A token of another kind is not passed. -/
theorem peek_of_ne (h : ∀ t ∈ tokens.head?, t.kind ≠ kind)
    {behind : (t : Token) → (rest : List Token) → rest.length < tokens.length → β} :
    peek kind tokens behind infront = infront := by
  cases tokens with
  | nil => rfl
  | cons t rest => exact if_neg (h t rfl)

end

section

variable {ending : Except LexError Nat} {limit : Nat} {s : State} {tokens : List Token}

/-- A state that takes a name only is one that reads it. -/
theorem conclude_eq_identifier (next : Identifier → State)
    (hs : ∀ statement, s ≠ .complete statement)
    (hstep : ∀ t ∈ tokens.head?,
      s.step? limit t = if t.kind = .identifier then some (next ⟨t⟩) else none)
    (hfault : ∀ t, s.fault limit t =
      .unexpectedToken TokenKind.identifier.name t.kind.name) :
    s.conclude limit ending tokens =
      (identifier ending tokens).conclude limit ending next :=
  (conclude_eq_eat (fun t ↦ next ⟨t⟩) hs hstep hfault).trans (Exit.conclude_bind fun _ _ _ ↦ rfl)

/-- The name of a column is a column where no alias follows. -/
theorem conclude_columnName (h : ∀ t ∈ tokens.head?, t.kind ≠ .asKw) (token : Token)
    (done : List Column) (name : Identifier) :
    (State.columnName token done name).conclude limit ending tokens =
      (State.columnEnd token (⟨name, none⟩ :: done)).conclude limit ending tokens := by
  cases tokens with
  | nil => cases ending <;> rfl
  | cons t rest =>
    have ht := h t rfl
    cases hk : t.kind <;> simp_all [State.conclude, State.step?, State.fault]

/-- A state in front of the name of a column reads the whole column. -/
theorem conclude_column {token : Token} {done : List Column}
    (hs : s.conclude limit ending tokens =
      (identifier ending tokens).conclude limit ending (.columnName token done)) :
    s.conclude limit ending tokens =
      (column ending tokens).conclude limit ending fun c ↦ .columnEnd token (c :: done) := by
  rw [hs, column]
  refine Exit.conclude_bind fun name rest shorter ↦ ?_
  rcases exists_cons_or_ne .asKw rest with ⟨t, rest', rfl, hk⟩ | hne
  · rw [peek_cons hk]
    have hstep : (State.columnName token done name).step? limit t =
        some (.columnAlias token done name) := by
      simp [State.step?, hk]
    simp only [State.conclude, hstep]
    refine (conclude_eq_identifier (fun a ↦ .columnEnd token (⟨name, some a⟩ :: done))
      (fun _ ↦ State.noConfusion) (fun u _ ↦ ?_) fun _ ↦ rfl).trans
        (Exit.conclude_bind fun _ _ _ ↦ rfl)
    cases hu : u.kind <;> simp [State.step?, hu]
  · rw [peek_of_ne hne]
    exact conclude_columnName hne token done name

/-- A state in front of the name of a column reads all columns from there on, and then `FROM`. -/
theorem conclude_columns {token : Token} {done : List Column}
    (hs : s.conclude limit ending tokens =
      (identifier ending tokens).conclude limit ending (.columnName token done)) :
    s.conclude limit ending tokens =
      (columns ending done tokens).followedBy fun list rest ↦
        (eat ending .fromKw rest).conclude limit ending fun _ ↦ .table token (.columns list) := by
  obtain ⟨k, hk⟩ : ∃ k, tokens.length = k := ⟨_, rfl⟩
  induction k using Nat.strongRecOn generalizing s done tokens with
  | ind k ih =>
    subst hk
    rw [conclude_column hs, columns]
    refine Exit.followedBy_bind fun c rest shorter ↦ ?_
    rcases exists_cons_or_ne .comma rest with ⟨t, rest', rfl, hk⟩ | hne
    · rw [peek_cons hk]
      have hstep : (State.columnEnd token (c :: done)).step? limit t =
          some (.column token (c :: done)) := by
        simp [State.step?, hk]
      have hname : (State.column token (c :: done)).conclude limit ending rest' =
          (identifier ending rest').conclude limit ending (.columnName token (c :: done)) := by
        refine conclude_eq_identifier _ (fun _ ↦ State.noConfusion) (fun u _ ↦ ?_) fun _ ↦ rfl
        cases hu : u.kind <;> simp [State.step?, hu]
      simp only [State.conclude, hstep]
      rw [ih _ (Nat.lt_trans (Nat.lt_succ_self _) shorter) hname rfl]
      exact Exit.followedBy_bind fun _ _ _ ↦ rfl
    · rw [peek_of_ne hne]
      refine conclude_eq_eat _ (fun _ ↦ State.noConfusion) (fun u hu ↦ ?_) fun _ ↦ rfl
      have hcomma := hne u hu
      cases hk : u.kind <;> simp_all [State.step?]

/-- Behind `SELECT` the projection is read, and then `FROM`. -/
theorem conclude_projection (token : Token) :
    (State.projection token).conclude limit ending tokens =
      (projection ending tokens).followedBy fun list rest ↦
        (eat ending .fromKw rest).conclude limit ending fun _ ↦ .table token list := by
  rw [projection]
  rcases exists_cons_or_ne .star tokens with ⟨star, rest, rfl, hk⟩ | hne
  · rw [peek_cons hk]
    have hstep : (State.projection token).step? limit star = some (.wildcard token star) := by
      simp [State.step?, hk]
    simp only [State.conclude, hstep]
    refine conclude_eq_eat _ (fun _ ↦ State.noConfusion) (fun u _ ↦ ?_) fun _ ↦ rfl
    cases hu : u.kind <;> simp [State.step?, hu]
  · rw [peek_of_ne hne]
    have hname : (State.projection token).conclude limit ending tokens =
        (identifier ending tokens).conclude limit ending (.columnName token []) := by
      refine conclude_eq_identifier _ (fun _ ↦ State.noConfusion) (fun u hu ↦ ?_) fun _ ↦ rfl
      have hstar := hne u hu
      cases hk : u.kind <;> simp_all [State.step?]
    rw [conclude_columns hname]
    exact Exit.followedBy_bind fun _ _ _ ↦ rfl

/-- A statement begins with its header. -/
theorem conclude_start : State.start.conclude limit ending tokens =
    (header ending tokens).conclude limit ending .tableName := by
  rw [header]
  refine (conclude_eq_take _ State.projection (fun _ ↦ State.noConfusion) (fun t _ ↦ ?_) rfl).trans
    (Exit.conclude_bind fun token rest shorter ↦ ?_)
  · cases ht : t.kind <;> simp [State.step?, ht]
  · rw [conclude_projection]
    refine Exit.followedBy_bind fun list rest' shorter' ↦ ?_
    refine Exit.conclude_bind fun _ rest'' shorter'' ↦ ?_
    refine (conclude_eq_identifier (fun name ↦ .tableName ⟨token, list, name⟩)
      (fun _ ↦ State.noConfusion) (fun u _ ↦ ?_) fun _ ↦ rfl).trans
        (Exit.conclude_bind fun _ _ _ ↦ rfl)
    cases hu : u.kind <;> simp [State.step?, hu]

end

/-- The states read a statement as the descent does with all levels left. -/
theorem conclude_eq_statement (limit : Nat) (ending : Except LexError Nat) (tokens : List Token) :
    State.start.conclude limit ending tokens = (statement ending ⟨limit⟩ tokens).1 := by
  rw [conclude_start, statement]
  cases header ending tokens with
  | failed e => rfl
  | read h rest shorter =>
    dsimp only
    rcases exists_cons_or_ne .whereKw rest with ⟨t, rest', rfl, hk⟩ | hne
    · rw [peek_cons hk, ← conclude_eq_clause]
      simp [Exit.conclude, Exit.followedBy, State.conclude, State.step?, hk]
    · rw [peek_of_ne hne, ← conclude_semicolon]
      refine conclude_eq_eat _ (fun _ ↦ State.noConfusion) (fun u hu ↦ ?_) fun _ ↦ rfl
      have hwhere := hne u hu
      cases hk : u.kind <;> simp_all [State.step?]

/-- Every level that is taken for a statement is given back, whatever comes of the statement. -/
theorem statement_snd (ending : Except LexError Nat) (levels : Levels) (tokens : List Token) :
    (statement ending levels tokens).2 = levels := by
  rw [statement]
  cases header ending tokens with
  | failed e => rfl
  | read h rest shorter =>
    dsimp only
    rcases exists_cons_or_ne .whereKw rest with ⟨t, rest', rfl, hk⟩ | hne
    · rw [peek_cons hk]
      exact clause_snd ending h levels rest'
    · rw [peek_of_ne hne]

end Descent

/-- A source is parsed by recursive descent over its tokens, with as many levels as the limit
says. -/
theorem parseWithin_eq_statement (limit : Nat) (source : String) :
    parseWithin limit source =
      (Descent.statement (Lexer.ofSource source).remaining.2 ⟨limit⟩
        (Lexer.ofSource source).remaining.1).1 := by
  rw [parseWithin_eq_conclude, Descent.conclude_eq_statement]

end SelectQuery.Parser
