import Mathlib.Data.List.Basic
import SelectQuery.Proofs.Position

/-!
# The grammar

The grammar of statements as an inductive definition over kinds of token, one constructor for each
alternative of each rule. It is ambiguous: a `NOT` may end anywhere in the chain behind it.
`Grammar.run?_of_sentence` says that positions, which choose the longest, still lead through every
sentence.
-/

namespace SelectQuery

namespace Grammar

/-- The phrases that the rules of the grammar are about. -/
inductive Phrase where
  | statement
  | projection
  | column
  | expression
  | andCondition
  | condition
  | comparison
  | operand
  deriving DecidableEq, Repr

open TokenKind

/-- The kinds of token that make a phrase. A repetition `x (SEP x)*` is a list of words for `x`
that is not empty, with the separator between them. -/
inductive Derives : Phrase → List TokenKind → Prop where
  | unconditional {p : List TokenKind} : Derives .projection p →
      Derives .statement ([selectKw] ++ p ++ [fromKw, identifier] ++ [semicolon, eof])
  | conditional {p e : List TokenKind} : Derives .projection p → Derives .expression e →
      Derives .statement
        ([selectKw] ++ p ++ [fromKw, identifier] ++ [whereKw] ++ e ++ [semicolon, eof])
  | star : Derives .projection [star]
  | columns {cs : List (List TokenKind)} : cs ≠ [] → (∀ c ∈ cs, Derives .column c) →
      Derives .projection ([comma].intercalate cs)
  | name : Derives .column [identifier]
  | aliased : Derives .column [identifier, asKw, identifier]
  | expression {cs : List (List TokenKind)} : cs ≠ [] → (∀ c ∈ cs, Derives .andCondition c) →
      Derives .expression ([orKw].intercalate cs)
  | andCondition {cs : List (List TokenKind)} : cs ≠ [] → (∀ c ∈ cs, Derives .condition c) →
      Derives .andCondition ([andKw].intercalate cs)
  | comparison {c : List TokenKind} : Derives .comparison c → Derives .condition c
  | paren {e : List TokenKind} : Derives .expression e →
      Derives .condition ([leftParen] ++ e ++ [rightParen])
  | negation {e : List TokenKind} : Derives .expression e → Derives .condition ([notKw] ++ e)
  | compare {l r : List TokenKind} {k : TokenKind} : Derives .operand l →
      (ComparisonOperator.ofKind? k).isSome → Derives .operand r →
      Derives .comparison (l ++ [k] ++ r)
  | number : Derives .operand [number]
  | identifier : Derives .operand [identifier]
  | string : Derives .operand [string]

/-- The kinds of the tokens of a whole source, its end included, that the grammar allows. -/
def Sentence (kinds : List TokenKind) : Prop := Derives .statement kinds

/-- What a sentence may begin with. -/
def Viable (kinds : List TokenKind) : Prop := ∃ rest, Sentence (kinds ++ rest)

/-- Less of a sentence is the beginning of one as well. -/
theorem Viable.of_append {kinds kinds' : List TokenKind} (h : Viable (kinds ++ kinds')) :
    Viable kinds := by
  obtain ⟨rest, h⟩ := h
  exact ⟨kinds' ++ rest, by rwa [← List.append_assoc]⟩

end Grammar

namespace Parser.Position

open Grammar

-- A text of a condition leads to its end, whatever is open around it. Negations of its own may
-- stay open, since they take all that follows.
private def Crosses (kinds : List TokenKind) : Prop :=
  ∀ opens, ∃ opens',
    (condition opens).run? kinds = some (conditionEnd opens') ∧
      (expression opens).run? kinds = some (conditionEnd opens') ∧
      Opener.endNegations opens' = Opener.endNegations opens

-- What a phrase does to the positions that it stands at.
private def Reads : Phrase → List TokenKind → Prop
  | .statement, kinds => start.run? kinds = some ended
  | .projection, kinds =>
    projection.run? (kinds ++ [.fromKw]) = some table
  | .column, kinds =>
    ∀ p ∈ [projection, column], ∃ q ∈ [columnName, columnEnd], p.run? kinds = some q
  | .operand, kinds => kinds = [.number] ∨ kinds = [.identifier] ∨ kinds = [.string]
  | .comparison, kinds | .condition, kinds | .andCondition, kinds | .expression, kinds =>
    Crosses kinds

private theorem reads_columns {c : List TokenKind} {cs : List (List TokenKind)}
    (h : ∀ d ∈ c :: cs, Reads .column d) :
    ∀ p ∈ [projection, column],
      p.run? ([TokenKind.comma].intercalate (c :: cs) ++ [.fromKw]) = some table := by
  induction cs generalizing c with
  | nil =>
    intro p hp
    obtain ⟨q, hq, hrun⟩ := h c (List.mem_singleton.mpr rfl) p hp
    rw [List.intercalate_singleton, run?_append, hrun]
    rcases List.mem_pair.mp hq with rfl | rfl <;> rfl
  | cons d cs ih =>
    intro p hp
    obtain ⟨q, hq, hrun⟩ := h c (List.mem_cons_self ..) p hp
    have hd := ih (fun e he ↦ h e (List.mem_cons_of_mem _ he)) column (by simp)
    rw [List.intercalate_cons_cons, List.append_assoc, List.append_assoc, run?_append, hrun]
    rcases List.mem_pair.mp hq with rfl | rfl <;> exact hd

private theorem crosses_chain {k : TokenKind} (hk : k = .andKw ∨ k = .orKw)
    {c : List TokenKind} {cs : List (List TokenKind)} (h : ∀ d ∈ c :: cs, Crosses d) :
    Crosses ([k].intercalate (c :: cs)) := by
  induction cs generalizing c with
  | nil => simpa using h c (List.mem_singleton.mpr rfl)
  | cons d cs ih =>
    intro opens
    obtain ⟨opens₁, hc, he, h₁⟩ := h c (List.mem_cons_self ..) opens
    obtain ⟨opens₂, hc₂, -, h₂⟩ := ih (fun e he ↦ h e (List.mem_cons_of_mem _ he)) opens₁
    have hstep : (conditionEnd opens₁).step? k = some (condition opens₁) := by
      rcases hk with rfl | rfl <;> rfl
    refine ⟨opens₂, ?_, ?_, h₂.trans h₁⟩
    · rw [List.intercalate_cons_cons, List.append_assoc, run?_append, hc]
      simpa [hstep] using hc₂
    · rw [List.intercalate_cons_cons, List.append_assoc, run?_append, he]
      simpa [hstep] using hc₂

private theorem reads_of_derives {p : Phrase} {kinds : List TokenKind} (h : Derives p kinds) :
    Reads p kinds := by
  induction h with
  | @unconditional p _ ih =>
    have hp : (projection.run? (p ++ [.fromKw])) = some table := ih
    have hl : [TokenKind.selectKw] ++ p ++ [.fromKw, .identifier] ++ [.semicolon, .eof] =
        .selectKw :: (p ++ [.fromKw] ++ [.identifier, .semicolon, .eof]) := by simp
    change start.run? _ = _
    rw [hl, run?_cons, step?, Option.bind_some, run?_append, hp]
    rfl
  | @conditional p e _ _ ihp ihe =>
    have hp : (projection.run? (p ++ [.fromKw])) = some table := ihp
    obtain ⟨opens, -, he, hopens⟩ := ihe []
    have hl : [TokenKind.selectKw] ++ p ++ [.fromKw, .identifier] ++ [.whereKw] ++ e ++
        [.semicolon, .eof] =
        .selectKw :: (p ++ [.fromKw] ++
          (.identifier :: .whereKw :: (e ++ [.semicolon, .eof]))) := by
      simp
    change start.run? _ = _
    rw [hl, run?_cons, step?, Option.bind_some, run?_append, hp, Option.bind_some, run?_cons,
      step?, Option.bind_some, run?_cons, step?, Option.bind_some, run?_append, he]
    simp [step?, endCondition?, hopens]
  | star => rfl
  | @columns cs hne _ ih =>
    obtain ⟨c, cs, rfl⟩ := List.exists_cons_of_ne_nil hne
    exact reads_columns ih projection (by simp)
  | name =>
    intro p hp
    rcases List.mem_pair.mp hp with rfl | rfl <;> exact ⟨columnName, by simp, rfl⟩
  | aliased =>
    intro p hp
    rcases List.mem_pair.mp hp with rfl | rfl <;> exact ⟨columnEnd, by simp, rfl⟩
  | @expression cs hne _ ih =>
    obtain ⟨c, cs, rfl⟩ := List.exists_cons_of_ne_nil hne
    exact crosses_chain (.inr rfl) ih
  | @andCondition cs hne _ ih =>
    obtain ⟨c, cs, rfl⟩ := List.exists_cons_of_ne_nil hne
    exact crosses_chain (.inl rfl) ih
  | comparison _ ih => exact ih
  | @paren e _ ih =>
    intro opens
    obtain ⟨opens', -, he, hopens⟩ := ih (.paren :: opens)
    have hstep : (conditionEnd opens').step? .rightParen = some (conditionEnd opens) := by
      simp [step?, endCondition?, hopens]
    have hrun : (expression (.paren :: opens)).run? (e ++ [.rightParen]) =
        some (conditionEnd opens) := by
      rw [run?_append, he]
      simp [hstep]
    exact ⟨opens, hrun, hrun, rfl⟩
  | @negation e _ ih =>
    intro opens
    obtain ⟨opens', -, he, hopens⟩ := ih (.negation :: opens)
    exact ⟨opens', he, he, hopens⟩
  | @compare l r k _ hk _ ihl ihr =>
    intro opens
    obtain ⟨op, hop⟩ := Option.isSome_iff_exists.mp hk
    have hstep : (operator opens).step? k = some (operand opens) := by simp [step?, hop]
    have hr : (operator opens).run? (k :: r) = some (conditionEnd opens) := by
      rw [run?_cons, hstep]
      rcases ihr with rfl | rfl | rfl <;> rfl
    refine ⟨opens, ?_, ?_, rfl⟩ <;> rcases ihl with rfl | rfl | rfl <;> exact hr
  | number => exact .inl rfl
  | identifier => exact .inr (.inl rfl)
  | string => exact .inr (.inr rfl)

/-- Positions lead through every sentence, up to the end of the source. -/
theorem run?_of_sentence {kinds : List TokenKind} (h : Sentence kinds) :
    start.run? kinds = some ended :=
  reads_of_derives h

/-- Positions lead through all that a sentence may begin with. -/
theorem run?_of_viable {kinds : List TokenKind} (h : Viable kinds) :
    ∃ p, start.run? kinds = some p := by
  obtain ⟨rest, h⟩ := h
  have hrun := run?_of_sentence h
  rw [run?_append] at hrun
  obtain ⟨p, hp, -⟩ := Option.bind_eq_some_iff.mp hrun
  exact ⟨p, hp⟩

end Parser.Position

end SelectQuery
