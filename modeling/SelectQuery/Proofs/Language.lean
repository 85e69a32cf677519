import SelectQuery.Proofs.Consumed
import SelectQuery.Proofs.Grammar
import SelectQuery.Proofs.Nesting

/-!
# The language of the parser

Which sources hold a statement. What spells a statement is a sentence of the grammar, so positions
come to the end of exactly the sentences (`Grammar.sentence_iff`), and a source is parsed under a
limit exactly when its kinds are a sentence that nests no deeper (`parseWithin_isOk_iff`).
-/

namespace SelectQuery

namespace Grammar

open TokenKind

/-- What holds together at least as tightly as a binding says. -/
def Phrase.ofBinding : Nat → Phrase
  | 0 | 1 => .expression
  | 2 => .andCondition
  | _ => .condition

private theorem Derives.loosen {m n : Nat} (hle : n ≤ m) {kinds : List TokenKind}
    (h : Derives (.ofBinding m) kinds) : Derives (.ofBinding n) kinds := by
  have hand (h : Derives .condition kinds) : Derives .andCondition kinds := by
    simpa using Derives.andCondition (List.cons_ne_nil kinds []) (by simpa using h)
  have hor (h : Derives .andCondition kinds) : Derives .expression kinds := by
    simpa using Derives.expression (List.cons_ne_nil kinds []) (by simpa using h)
  match m, n with
  | 0, 0 | 0, 1 | 1, 0 | 1, 1 | 2, 2 | _ + 3, _ + 3 => exact h
  | 2, 0 | 2, 1 => exact hor h
  | _ + 3, 2 => exact hand h
  | _ + 3, 0 | _ + 3, 1 => exact hor (hand h)

private theorem intercalate_concat (k : TokenKind) {cs : List (List TokenKind)} (hcs : cs ≠ [])
    (c : List TokenKind) : [k].intercalate (cs ++ [c]) = [k].intercalate cs ++ k :: c := by
  induction cs with
  | nil => exact absurd rfl hcs
  | cons d cs ih =>
    match cs with
    | [] => simp
    | e :: cs =>
      have ih := ih (List.cons_ne_nil e cs)
      rw [List.cons_append, List.cons_append, List.intercalate_cons_cons, ← List.cons_append, ih,
        List.intercalate_cons_cons]
      simp

private theorem Derives.chain {op : BooleanOperator} {k : TokenKind}
    (hk : BooleanOperator.ofKind? k = some op) {l r : List TokenKind}
    (hl : Derives (.ofBinding op.binding) l) (hr : Derives (.ofBinding (op.binding + 1)) r) :
    Derives (.ofBinding op.binding) (l ++ k :: r) := by
  cases op with
  | and =>
    obtain rfl : k = .andKw := by cases k <;> simp_all [BooleanOperator.ofKind?]
    cases hl with
    | @andCondition cs hcs h =>
      rw [← intercalate_concat _ hcs]
      refine .andCondition (by simp) fun c hc ↦ ?_
      rcases List.mem_append.mp hc with hc | hc
      · exact h c hc
      · rwa [List.mem_singleton.mp hc]
  | or =>
    obtain rfl : k = .orKw := by cases k <;> simp_all [BooleanOperator.ofKind?]
    cases hl with
    | @expression cs hcs h =>
      rw [← intercalate_concat _ hcs]
      refine .expression (by simp) fun c hc ↦ ?_
      rcases List.mem_append.mp hc with hc | hc
      · exact h c hc
      · rwa [List.mem_singleton.mp hc]

private theorem derives_operand {t : Token} {o : Operand} (h : Operand.ofToken? t = some o) :
    Derives .operand [t.kind] := by
  unfold Operand.ofToken? at h
  split at h
  next hk => rw [hk]; exact .number
  next hk => rw [hk]; exact .identifier
  next hk => rw [hk]; exact .string
  next => cases h

private theorem derives_layout {l : Layout} (hl : l.Proper) :
    Derives (.ofBinding l.binding) (l.tokens.map Token.kind) := by
  induction l with
  | comparison c =>
    obtain ⟨hleft, hop, hright⟩ := hl
    have hc := Derives.compare (derives_operand hleft) (by rw [hop]; rfl) (derives_operand hright)
    exact .comparison hc
  | paren p l q ih =>
    obtain ⟨hp, hl, hq⟩ := hl
    have he : Derives .expression (l.tokens.map Token.kind) := (ih hl).loosen l.binding_pos
    have hkinds : (Layout.paren p l q).tokens.map Token.kind =
        [.leftParen] ++ l.tokens.map Token.kind ++ [.rightParen] := by
      simp [Layout.tokens, hp, hq]
    rw [hkinds]
    exact .paren he
  | negation t l ih =>
    obtain ⟨ht, hl⟩ := hl
    have he : Derives .expression (l.tokens.map Token.kind) := (ih hl).loosen l.binding_pos
    have hkinds : (Layout.negation t l).tokens.map Token.kind =
        [.notKw] ++ l.tokens.map Token.kind := by
      simp [Layout.tokens, ht]
    rw [hkinds]
    exact .negation he
  | boolean t op l r ihl ihr =>
    obtain ⟨⟨ht, hl, hr⟩, -, hopl, hopr⟩ := hl
    have hkinds : (Layout.boolean t op l r).tokens.map Token.kind =
        l.tokens.map Token.kind ++ t.kind :: r.tokens.map Token.kind := by
      simp [Layout.tokens]
    rw [hkinds]
    exact .chain ht ((ihl hl).loosen hopl) ((ihr hr).loosen hopr)

private theorem derives_column {c : Column} {tokens : List Token} (h : c.Spelled tokens) :
    Derives .column (tokens.map Token.kind) := by
  cases h with
  | name hn =>
    rw [List.map_singleton, hn]
    exact .name
  | aliased hn ht ha =>
    simp only [List.map_cons, List.map_nil, hn, ht, ha]
    exact .aliased

private theorem derives_columns {columns : List Column} {tokens : List Token}
    (h : Projection.ColumnsSpelled columns tokens) :
    ∃ cs, cs ≠ [] ∧ (∀ c ∈ cs, Derives .column c) ∧
      tokens.map Token.kind = [comma].intercalate cs := by
  induction h with
  | @single c tokens hc =>
    exact ⟨[tokens.map Token.kind], by simp, by simpa using derives_column hc, by simp⟩
  | @more c columns t tokens tokens' _ ht hc ih =>
    obtain ⟨cs, hcs, h, hkinds⟩ := ih
    refine ⟨cs ++ [tokens'.map Token.kind], by simp, fun d hd ↦ ?_, ?_⟩
    · rcases List.mem_append.mp hd with hd | hd
      · exact h d hd
      · rw [List.mem_singleton.mp hd]
        exact derives_column hc
    · rw [intercalate_concat _ hcs, ← hkinds, List.map_append, List.map_cons, ht]

private theorem derives_projection {p : Projection} {tokens : List Token} (h : p.Spelled tokens) :
    Derives .projection (tokens.map Token.kind) := by
  cases p with
  | wildcard star =>
    obtain ⟨hstar, rfl⟩ := h
    rw [List.map_singleton, hstar]
    exact .star
  | columns list =>
    obtain ⟨cs, hcs, h, hkinds⟩ := derives_columns h
    rw [hkinds]
    exact .columns hcs h

private theorem derives_header {h : Header} {tokens : List Token} (hh : h.Spelled tokens) :
    ∃ p, Derives .projection p ∧
      tokens.map Token.kind = [selectKw] ++ p ++ [fromKw, TokenKind.identifier] := by
  obtain ⟨htoken, hp, ht, htable⟩ := hh
  exact ⟨_, derives_projection hp, by simp [htoken, ht, htable]⟩

/-- What spells a statement is a sentence once it ends. -/
theorem sentence_of_spelled {statement : Statement} {n : Nat} {tokens : List Token}
    (h : statement.Spelled n tokens) : Sentence (tokens.map Token.kind ++ [eof]) := by
  cases h with
  | unconditional hh ht =>
    obtain ⟨p, hp, hkinds⟩ := derives_header hh
    have h : Sentence _ := Derives.unconditional hp
    simpa [hkinds, ht] using h
  | @conditional h l w t tokens hh hw hl ht =>
    obtain ⟨p, hp, hkinds⟩ := derives_header hh
    have he : Derives .expression (l.tokens.map Token.kind) :=
      (derives_layout hl).loosen l.binding_pos
    have h : Sentence _ := Derives.conditional hp he
    simpa [hkinds, hw, ht] using h

end Grammar

namespace Parser

open Grammar

namespace Position

/-- The end of the source can only be taken behind a complete statement. -/
theorem step?_eof {p q : Position} (h : p.step? .eof = some q) : p = complete ∧ q = ended := by
  cases p with
  | complete => exact ⟨rfl, (Option.some.inj h).symm⟩
  | _ => simp [step?, beginCondition?, endCondition?, ComparisonOperator.ofKind?] at h

/-- Only the end of the source ends a run, and only behind a complete statement. -/
theorem step?_eq_ended_iff {p : Position} {k : TokenKind} :
    p.step? k = some ended ↔ p = complete ∧ k = .eof := by
  constructor
  · intro h
    cases p with
    | conditionEnd opens =>
      have hstep : endCondition? opens k = some ended := h
      unfold endCondition? at hstep
      repeat' split at hstep
      all_goals cases hstep
    | _ => cases k <;> simp_all [step?, beginCondition?, ComparisonOperator.ofKind?]
  · rintro ⟨rfl, rfl⟩
    rfl

/-- The end of the source ends exactly the runs that come to a complete statement. -/
theorem runWithin?_concat_eof {limit : Nat} {p : Position} {kinds : List TokenKind} :
    p.runWithin? limit (kinds ++ [.eof]) = some ended ↔
      p.runWithin? limit kinds = some complete := by
  have happend : p.runWithin? limit (kinds ++ [.eof]) =
      (p.runWithin? limit kinds).bind fun q ↦ q.stepWithin? limit .eof := by
    simp [runWithin?, List.foldlM_append]
  rw [happend, Option.bind_eq_some_iff]
  constructor
  · rintro ⟨q, hq, h⟩
    unfold stepWithin? at h
    split at h
    next =>
      rw [step?_eq_ended_iff] at h
      rwa [← h.1]
    next => cases h
  · intro h
    exact ⟨complete, h, rfl⟩

/-- A run that comes to the end takes the end of the source last, and nowhere else. -/
theorem exists_of_run?_eq_ended {p : Position} (hp : p ≠ ended) {kinds : List TokenKind}
    (h : p.run? kinds = some ended) : ∃ ks, kinds = ks ++ [.eof] ∧ .eof ∉ ks := by
  induction kinds generalizing p with
  | nil => exact absurd (Option.some.inj h) hp
  | cons k kinds ih =>
    obtain ⟨q, hq, hrest⟩ := Option.bind_eq_some_iff.mp h
    by_cases hq' : q = ended
    · subst hq'
      obtain ⟨-, rfl⟩ := step?_eq_ended_iff.mp hq
      cases kinds with
      | nil => exact ⟨[], rfl, by simp⟩
      | cons k' kinds => cases hrest
    · obtain ⟨ks, rfl, hks⟩ := ih hq' hrest
      refine ⟨k :: ks, rfl, ?_⟩
      have hk : k ≠ .eof := by
        rintro rfl
        exact hq' (step?_eof hq).2
      simp [hk.symm, hks]

end Position

namespace State

/-- A state is complete where its position is. -/
theorem position_eq_complete_iff {s : State} : s.position = .complete ↔ ∃ S, s = complete S := by
  cases s <;> simp [position]

/-- Some statement comes of a run exactly when the positions of the tokens lead to the end. -/
theorem run?_isComplete_iff (limit : Nat) {tokens : List Token}
    (h : ∀ t ∈ tokens, t.kind ≠ .eof) :
    (∃ S, start.run? limit tokens = some (complete S)) ↔
      Position.start.runWithin? limit (tokens.map Token.kind ++ [.eof]) = some .ended := by
  have hmap : (start.run? limit tokens).map position =
      Position.start.runWithin? limit (tokens.map Token.kind) := map_position_run? limit start h
  rw [Position.runWithin?_concat_eof, ← hmap]
  simp only [Option.map_eq_some_iff, position_eq_complete_iff]
  constructor
  · rintro ⟨S, hS⟩
    exact ⟨_, hS, S, rfl⟩
  · rintro ⟨_, hs, S, rfl⟩
    exact ⟨S, hs⟩

end State

end Parser

namespace Grammar

/-- The sentences are what positions come to the end of. -/
theorem sentence_iff {kinds : List TokenKind} :
    Sentence kinds ↔ Parser.Position.start.run? kinds = some .ended := by
  constructor
  · exact Parser.Position.run?_of_sentence
  · intro h
    obtain ⟨ks, rfl, hks⟩ := Parser.Position.exists_of_run?_eq_ended (by simp) h
    -- Any tokens of these kinds spell a statement, under a limit as high as they nest.
    have hmap : (ks.map fun k ↦ Token.mk k "" ⟨0, 0⟩).map Token.kind = ks := by
      simp [Function.comp_def]
    have heof : ∀ t ∈ ks.map fun k ↦ Token.mk k "" ⟨0, 0⟩, t.kind ≠ .eof := by
      rintro t ht
      obtain ⟨k, hk, rfl⟩ := List.mem_map.mp ht
      exact fun hkind ↦ hks (hkind ▸ hk)
    have hwithin := Parser.Position.runWithin?_eq_ended_iff.mpr ⟨h, Nat.le_refl _⟩
    rw [← hmap, ← Parser.State.run?_isComplete_iff _ heof] at hwithin
    obtain ⟨S, hS⟩ := hwithin
    obtain ⟨n, -, hspelled⟩ := Parser.State.run?_start_eq_complete_iff.mp hS
    rw [← hmap]
    exact sentence_of_spelled hspelled

/-- Whether kinds are a sentence is decided by a run over them. -/
instance (kinds : List TokenKind) : Decidable (Sentence kinds) :=
  decidable_of_iff _ sentence_iff.symm

end Grammar

/-- A source is parsed exactly when it can be split into tokens, their kinds are a sentence of the
grammar, and this nests no deeper than the limit. -/
theorem parseWithin_isOk_iff (limit : Nat) (source : String) :
    (∃ statement, parseWithin limit source = .ok statement) ↔
      ∃ tokens, tokenize source = .ok tokens ∧
        Grammar.Sentence (tokens.map Token.kind) ∧
        Grammar.nesting (tokens.map Token.kind) ≤ limit := by
  have heof : ∀ t ∈ (Lexer.ofSource source).remaining.1, t.kind ≠ .eof :=
    fun t ht ↦ Lexer.kind_ne_eof_of_mem_remaining ht
  have hrun := Parser.State.run?_isComplete_iff limit heof
  simp only [parseWithin_eq_ok_iff, tokenize_eq_ok_iff, exists_and_right, hrun,
    Parser.Position.runWithin?_eq_ended_iff, ← Grammar.sentence_iff]
  constructor
  · rintro ⟨h, offset, hending⟩
    exact ⟨_, ⟨offset, hending, rfl⟩, by simpa [Token.eof] using h⟩
  · rintro ⟨tokens, ⟨offset, hending, rfl⟩, h⟩
    exact ⟨by simpa [Token.eof] using h, offset, hending⟩

end SelectQuery
