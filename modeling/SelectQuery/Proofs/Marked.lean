import SelectQuery.Proofs.Bare
import SelectQuery.Proofs.Held
import SelectQuery.Proofs.Splitting

/-!
# Layouts with arbitrary grouping

A layout whose tokens are of the right kinds may have too few parentheses to be read back, but its
tokens are read in any case, as those of some proper layout (`Layout.Marked.exists_proper`). This
stands for the same tree only if it is the layout itself (`Layout.Marked.eq_of_tokens`), since the
tree says which tokens an operator joins, and no parenthesis can be anywhere else then.
-/

namespace SelectQuery

open SelectQuery.Parser (Position)

/-- How many parentheses are open behind a token, if it does not close one that is not open. -/
def TokenKind.depthAfter? (depth : Nat) : TokenKind → Option Nat
  | leftParen => some (depth + 1)
  | rightParen => if depth = 0 then none else some (depth - 1)
  | _ => some depth

/-- What is open around a token stays open. -/
theorem TokenKind.depthAfter?_add {depth depth' : Nat} {kind : TokenKind}
    (h : kind.depthAfter? depth = some depth') (outside : Nat) :
    kind.depthAfter? (depth + outside) = some (depth' + outside) := by
  unfold TokenKind.depthAfter? at h ⊢
  split at h <;> grind

namespace Token

/-- How many parentheses are open behind tokens, if they close none that is not open. -/
def depthAfter? (depth : Nat) : List Token → Option Nat
  | [] => some depth
  | t :: tokens => (t.kind.depthAfter? depth).bind fun depth ↦ depthAfter? depth tokens

/-- Tokens may be taken in two portions. -/
theorem depthAfter?_append (depth : Nat) (tokens tokens' : List Token) :
    depthAfter? depth (tokens ++ tokens') =
      (depthAfter? depth tokens).bind fun depth ↦ depthAfter? depth tokens' := by
  induction tokens generalizing depth with
  | nil => rfl
  | cons t tokens ih => simp only [List.cons_append, depthAfter?, ih, Option.bind_assoc]

/-- What is open around the tokens stays open. -/
theorem depthAfter?_add {depth depth' : Nat} {tokens : List Token}
    (h : depthAfter? depth tokens = some depth') (outside : Nat) :
    depthAfter? (depth + outside) tokens = some (depth' + outside) := by
  induction tokens generalizing depth with
  | nil =>
    obtain rfl := Option.some.inj h
    rfl
  | cons t tokens ih =>
    obtain ⟨next, hnext, hrest⟩ := Option.bind_eq_some_iff.mp h
    rw [depthAfter?, TokenKind.depthAfter?_add hnext]
    exact ih hrest

/-- An open parenthesis stays open as long as the tokens behind it close none but their own. -/
theorem lt_of_depthAfter? {depth depth' total : Nat} {tokens tokens' : List Token}
    (hown : depthAfter? 0 (tokens ++ tokens') = some total)
    (h : depthAfter? (depth + 1) tokens = some depth') : depth < depth' := by
  rw [depthAfter?_append] at hown
  obtain ⟨inside, hinside, -⟩ := Option.bind_eq_some_iff.mp hown
  have hadd := depthAfter?_add hinside (depth + 1)
  rw [Nat.zero_add, h] at hadd
  have hdepth := Option.some.inj hadd
  omega

end Token

namespace Layout

/-- A layout closes all that it opens. -/
theorem Marked.depthAfter? {l : Layout} (h : l.Marked) (depth : Nat) :
    Token.depthAfter? depth l.tokens = some depth := by
  induction l generalizing depth with
  | comparison c =>
    have hstep : ∀ t ∈ (comparison c).tokens, t.kind.depthAfter? depth = some depth := by
      intro t ht
      have hcompared := Proper.isCompared h t ht
      cases hk : t.kind <;> simp_all [TokenKind.isCompared, TokenKind.depthAfter?]
    simp only [tokens, List.forall_mem_cons] at hstep
    simp [tokens, Token.depthAfter?, hstep.1, hstep.2.1, hstep.2.2.1]
  | paren p l q ih =>
    obtain ⟨hp, hl, hq⟩ := h
    simp [tokens, hp, hq, TokenKind.depthAfter?, Token.depthAfter?, Token.depthAfter?_append, ih hl]
  | negation t l ih =>
    obtain ⟨ht, hl⟩ := h
    simp [tokens, ht, TokenKind.depthAfter?, Token.depthAfter?, ih hl]
  | boolean t op l r ihl ihr =>
    obtain ⟨ht, hl, hr⟩ := h
    have hstep : t.kind.depthAfter? depth = some depth := by
      cases hk : t.kind <;> simp_all [BooleanOperator.ofKind?, TokenKind.depthAfter?]
    simp [tokens, Token.depthAfter?_append, Token.depthAfter?, ihl hl, hstep, ihr hr]

private theorem map_kind_ne_nil (l : Layout) : l.tokens.map Token.kind ≠ [] :=
  mt List.map_eq_nil_iff.mp l.tokens_ne_nil

/-- The tokens of a layout lead from the beginning of a condition to its end, whatever is open
around it. Negations of its own may stay open, since they take all that follows. -/
theorem Marked.crosses {l : Layout} (h : l.Marked) (opens : List Opener) :
    ∃ opens', (Position.condition opens).run? (l.tokens.map Token.kind) =
        some (.conditionEnd opens') ∧ Opener.endNegations opens' = Opener.endNegations opens := by
  induction l generalizing opens with
  | comparison c =>
    obtain ⟨hleft, hop, hright⟩ := h
    have hoperand {t : Token} {o : Operand} (ht : Operand.ofToken? t = some o) :
        t.kind = .number ∨ t.kind = .identifier ∨ t.kind = .string := by
      cases hk : t.kind <;> simp_all [Operand.ofToken?]
    have hmark : (Position.operator opens).step? c.token.kind = some (.operand opens) := by
      simp [Position.step?, hop]
    refine ⟨opens, ?_, rfl⟩
    rcases hoperand hleft with hl | hl | hl <;> rcases hoperand hright with hr | hr | hr <;>
      simp [tokens, Position.step?, Position.beginCondition?, hl, hop, hr]
  | paren p l q ih =>
    obtain ⟨hp, hl, hq⟩ := h
    obtain ⟨opens', hrun, hopens⟩ := ih hl (.paren :: opens)
    have hclose : Position.endCondition? opens' .rightParen = some (.conditionEnd opens) := by
      simp [Position.endCondition?, hopens]
    refine ⟨opens, ?_, rfl⟩
    rw [← Position.run?_expression l.map_kind_ne_nil] at hrun
    simp [tokens, Position.step?, Position.beginCondition?, hp, Position.run?_append, hrun, hq,
      hclose]
  | negation t l ih =>
    obtain ⟨ht, hl⟩ := h
    obtain ⟨opens', hrun, hopens⟩ := ih hl (.negation :: opens)
    refine ⟨opens', ?_, hopens⟩
    rw [← Position.run?_expression l.map_kind_ne_nil] at hrun
    simp [tokens, Position.step?, Position.beginCondition?, ht, hrun]
  | boolean t op l r ihl ihr =>
    obtain ⟨ht, hl, hr⟩ := h
    obtain ⟨opens₁, hrun₁, hopens₁⟩ := ihl hl opens
    obtain ⟨opens₂, hrun₂, hopens₂⟩ := ihr hr opens₁
    have hstep : (Position.conditionEnd opens₁).step? t.kind = some (.condition opens₁) := by
      cases hk : t.kind <;> simp_all [BooleanOperator.ofKind?] <;> rfl
    refine ⟨opens₂, ?_, hopens₂.trans hopens₁⟩
    simp [tokens, Position.run?_append, hrun₁, hstep, hrun₂]

end Layout

/-- What spells a statement and has a `WHERE` goes on behind it with a proper layout. -/
theorem Statement.Spelled.exists_layout {s : Statement} {n : Nat} {front tokens : List Token}
    {w : Token} (h : s.Spelled n (front ++ w :: tokens)) (hfront : ∀ t ∈ front, t.kind ≠ .whereKw)
    (hw : w.kind = .whereKw) :
    ∃ (l : Layout) (t : Token), l.Proper ∧ s.condition? = some l.tree ∧
      tokens = l.tokens ++ [t] := by
  have hdrop : (front ++ w :: tokens).dropWhile (·.kind ≠ .whereKw) = w :: tokens := by
    rw [List.dropWhile_append_of_pos (by simpa using hfront)]
    simp [hw]
  generalize front ++ w :: tokens = all at h hdrop
  cases h with
  | unconditional hh ht =>
    rw [dropWhile_header hh] at hdrop
    simp [ht] at hdrop
  | @conditional h l w' t _ hh hw' hl ht =>
    rw [List.append_assoc, List.append_assoc, dropWhile_header hh] at hdrop
    simp only [List.singleton_append, hw', ne_eq, not_true, decide_false, Bool.false_eq_true,
      not_false_eq_true, List.dropWhile_cons_of_neg, List.cons.injEq] at hdrop
    exact ⟨l, t, hl, rfl, hdrop.2.symm⟩

namespace Layout

/-- The tokens of every layout are read, though perhaps with another grouping. -/
theorem Marked.exists_proper {l : Layout} (h : l.Marked) :
    ∃ l' : Layout, l'.Proper ∧ l'.tokens = l.tokens := by
  -- They are put into a statement, whose other tokens do not matter.
  let word (kind : TokenKind) : Token := ⟨kind, "", ⟨0, 0⟩⟩
  let front := [word .selectKw, word .star, word .fromKw, word .identifier]
  let tokens := front ++ word .whereKw :: (l.tokens ++ [word .semicolon])
  have heof : ∀ t ∈ tokens, t.kind ≠ .eof := by
    simp only [tokens, front, List.forall_mem_append, List.forall_mem_cons]
    exact ⟨by simp [word], by simp [word], fun t ht ↦ (h.kind_ne t ht).2, by simp [word], by simp⟩
  have hrun : Position.start.run? (tokens.map Token.kind ++ [.eof]) = some .ended := by
    obtain ⟨opens, hcross, hopens⟩ := h.crosses []
    rw [← Position.run?_expression l.map_kind_ne_nil] at hcross
    simp [tokens, front, word, Position.step?, Position.run?_append, hcross,
      Position.endCondition?, hopens]
  obtain ⟨s, hs⟩ := (Parser.State.run?_isComplete_iff _ heof).mpr
    (Position.runWithin?_eq_ended_iff.mpr ⟨hrun, Nat.le_refl _⟩)
  obtain ⟨n, -, hspelled⟩ := Parser.State.run?_start_eq_complete_iff.mp hs
  obtain ⟨l', t, hl', -, htokens⟩ := hspelled.exists_layout (by simp [front, word]) rfl
  exact ⟨l', hl', (List.append_inj' htokens rfl).1.symm⟩

private theorem Marked.exists_paren {l l' : Layout} {p q : Token} (h : (paren p l q).Marked)
    (h' : l'.Marked) (htokens : l'.tokens = (paren p l q).tokens) :
    ∃ m : Layout, l' = paren p m q ∧ m.tokens = l.tokens := by
  obtain ⟨hp, hl, -⟩ := h
  cases l' with
  | comparison c =>
    have hcompared := Proper.isCompared h' c.left.token (by simp [tokens])
    obtain rfl : c.left.token = p := (List.cons.inj htokens).1
    rw [hp] at hcompared
    cases hcompared
  | paren p' m q' =>
    obtain ⟨rfl, hrest⟩ := List.cons.inj htokens
    obtain ⟨hm, hq⟩ := List.append_inj' hrest rfl
    obtain rfl := List.head_eq_of_cons_eq hq
    exact ⟨m, rfl, hm⟩
  | negation t m =>
    obtain rfl : t = p := (List.cons.inj htokens).1
    rw [h'.1] at hp
    cases hp
  | boolean t op a b =>
    -- The operator would stand where the first parenthesis is still open.
    have hdepth : Token.depthAfter? 0 a.tokens = some 0 := h'.2.1.depthAfter? 0
    obtain ⟨u, front, hfront⟩ := List.exists_cons_of_ne_nil a.tokens_ne_nil
    have hsplit : u :: (front ++ t :: b.tokens) = p :: (l.tokens ++ [q]) := by
      rw [← List.cons_append, ← hfront]
      exact htokens
    obtain ⟨rfl, hrest⟩ := List.cons.inj hsplit
    obtain ⟨rest, v, hb⟩ := List.eq_nil_or_concat b.tokens |>.resolve_left b.tokens_ne_nil
    have hinside : front ++ t :: rest = l.tokens := by
      rw [hb, List.concat_eq_append, ← List.cons_append, ← List.append_assoc] at hrest
      exact (List.append_inj' hrest rfl).1
    have hclosed := hl.depthAfter? 0
    rw [← hinside] at hclosed
    rw [hfront, Token.depthAfter?, hp] at hdepth
    exact absurd (Token.lt_of_depthAfter? hclosed hdepth) (Nat.lt_irrefl 0)

private theorem length_tokens_bare (c : Condition) : c.bare.tokens.length = c.tokens.length := by
  induction c with
  | comparison c => rfl
  | boolean t op l r ihl ihr => simp [Condition.bare, Condition.tokens, ihl, ihr]
  | negation t e ih => simp [Condition.bare, Condition.tokens, ih]

private theorem split_held {x y x' y' : List Token} {t t' : Token} (ht : t.kind.isHeld)
    (ht' : t'.kind.isHeld) (hcount : x.countP (·.kind.isHeld) = x'.countP (·.kind.isHeld))
    (h : x ++ t :: y = x' ++ t' :: y') :
    x = x' ∧ t = t' ∧ y = y' := by
  induction x generalizing x' with
  | nil =>
    cases x' with
    | nil => exact ⟨rfl, List.cons.inj h⟩
    | cons u x' =>
      obtain ⟨rfl, -⟩ := List.cons.inj h
      simp [ht] at hcount
  | cons u x ih =>
    cases x' with
    | nil =>
      obtain ⟨rfl, -⟩ := List.cons.inj h
      simp [ht'] at hcount
    | cons u' x' =>
      obtain ⟨rfl, hrest⟩ := List.cons.inj h
      rw [List.countP_cons, List.countP_cons, Nat.add_right_cancel_iff] at hcount
      obtain ⟨rfl, hbehind⟩ := ih hcount hrest
      exact ⟨rfl, hbehind⟩

/-- Two layouts with the same tokens, and of trees that differ in places at most, are the same. -/
theorem Marked.eq_of_tokens {l l' : Layout} (h : l.Marked) (h' : l'.Marked)
    (htokens : l.tokens = l'.tokens) (htree : l.tree.bare = l'.tree.bare) : l = l' := by
  induction l generalizing l' with
  | comparison c =>
    cases l' with
    | comparison c' =>
      obtain ⟨t, op, left, right⟩ := c
      obtain ⟨hleft, hop, hright⟩ := h
      obtain ⟨hleft', hop', hright'⟩ := h'
      simp only [tokens, List.cons.injEq, and_true] at htokens
      obtain ⟨hl, rfl, hr⟩ := htokens
      obtain rfl : left = c'.left := Option.some.inj (by rw [← hleft, ← hleft', hl])
      obtain rfl : right = c'.right := Option.some.inj (by rw [← hright, ← hright', hr])
      obtain rfl : op = c'.op := Option.some.inj (hop.symm.trans hop')
      rfl
    | paren p m q =>
      obtain ⟨m', heq, -⟩ := h'.exists_paren h htokens
      cases heq
    | negation t m => cases htree
    | boolean t op a b => cases htree
  | paren p l q ih =>
    obtain ⟨m, rfl, hm⟩ := h.exists_paren h' htokens.symm
    rw [ih h.2.1 h'.2.1 hm.symm htree]
  | negation t l ih =>
    cases l' with
    | comparison c => cases htree
    | paren p m q =>
      obtain ⟨m', heq, -⟩ := h'.exists_paren h htokens
      cases heq
    | negation t' m =>
      obtain ⟨rfl, hm⟩ := List.cons.inj htokens
      rw [ih h.2 h'.2 hm (Condition.negation.inj htree).2]
    | boolean t op a b => cases htree
  | boolean t op a b iha ihb =>
    cases l' with
    | comparison c => cases htree
    | paren p m q =>
      obtain ⟨m', heq, -⟩ := h'.exists_paren h htokens
      cases heq
    | negation t' m => cases htree
    | boolean t' op' a' b' =>
      obtain ⟨ht, ha, hb⟩ := h
      obtain ⟨ht', ha', hb'⟩ := h'
      obtain ⟨-, hop, hatree, hbtree⟩ := Condition.boolean.inj htree
      have hcount : a.tokens.countP (·.kind.isHeld) = a'.tokens.countP (·.kind.isHeld) := by
        rw [List.countP_eq_length_filter, List.countP_eq_length_filter, ha.filter_isHeld,
          ha'.filter_isHeld, ← length_tokens_bare, hatree, length_tokens_bare]
      obtain ⟨hatokens, rfl, hbtokens⟩ := split_held (TokenKind.isHeld_of_ofKind? ht)
        (TokenKind.isHeld_of_ofKind? ht') hcount htokens
      rw [hop, iha ha ha' hatokens hatree, ihb hb hb' hbtokens hbtree]

end Layout

end SelectQuery
