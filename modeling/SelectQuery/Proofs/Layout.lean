import SelectQuery.Proofs.Frame
import SelectQuery.Proofs.Run

/-!
# Layouts

A `Layout` is a condition as it is written, with every pair of parentheses in its place. It is
`Proper` if its parentheses suffice to read it back as the tree that it stands for: operators
group to the left and `AND` before `OR`, and nothing follows a negation inside the parentheses
around it. `Parser.State.run?_tokens` says what a run makes of a proper layout: the tree, if the
limit on nesting reaches as deep as the layout does, and else nothing.
-/

namespace SelectQuery

/-- Whether tokens of a kind stand in comparisons: operands and the marks between them. -/
def TokenKind.isCompared : TokenKind → Bool
  | number | identifier | string | equal | notEqual | less | lessEqual | greater | greaterEqual =>
    true
  | _ => false

/-- A condition with its parentheses. -/
inductive Layout where
  | comparison (c : Comparison)
  | paren (opening : Token) (inner : Layout) (closing : Token)
  | negation (token : Token) (operand : Layout)
  | boolean (token : Token) (op : BooleanOperator) (left right : Layout)
  deriving DecidableEq, Repr

namespace Layout

/-- The condition that a layout stands for. -/
def tree : Layout → Condition
  | comparison c => .comparison c
  | paren _ l _ => l.tree
  | negation t l => .negation t l.tree
  | boolean t op l r => .boolean t op l.tree r.tree

/-- The tokens of a layout in order. -/
def tokens : Layout → List Token
  | comparison c => [c.left.token, c.token, c.right.token]
  | paren p l q => p :: (l.tokens ++ [q])
  | negation t l => t :: l.tokens
  | boolean t _ l r => l.tokens ++ t :: r.tokens

/-- How many parentheses and negations are open at once where most are. -/
def depth : Layout → Nat
  | comparison _ => 0
  | paren _ l _ => 1 + l.depth
  | negation _ l => 1 + l.depth
  | boolean _ _ l r => max l.depth r.depth

/-- How tightly a layout holds together: a chain as its operator binds, all else tighter than any
operator. -/
def binding : Layout → Nat
  | boolean _ op _ _ => op.binding
  | _ => 3

/-- Whether a layout ends with a negation, which takes all that follows. -/
def isOpen : Layout → Bool
  | negation _ _ => true
  | boolean _ _ _ r => r.isOpen
  | _ => false

/-- The tokens are of the right kinds, and the parentheses suffice to read the tree back. -/
def Proper : Layout → Prop
  | comparison c =>
    Operand.ofToken? c.left.token = some c.left ∧
      ComparisonOperator.ofKind? c.token.kind = some c.op ∧
      Operand.ofToken? c.right.token = some c.right
  | paren p l q => p.kind = .leftParen ∧ l.Proper ∧ q.kind = .rightParen
  | negation t l => t.kind = .notKw ∧ l.Proper
  | boolean t op l r =>
    (BooleanOperator.ofKind? t.kind = some op ∧ l.Proper ∧ r.Proper) ∧
      l.isOpen = false ∧ op.binding ≤ l.binding ∧ op.binding < r.binding

/-- The tokens are of the right kinds, however the parentheses group them. -/
def Marked : Layout → Prop
  | comparison c => (comparison c).Proper
  | paren p l q => p.kind = .leftParen ∧ l.Marked ∧ q.kind = .rightParen
  | negation t l => t.kind = .notKw ∧ l.Marked
  | boolean t op l r => BooleanOperator.ofKind? t.kind = some op ∧ l.Marked ∧ r.Marked

/-- Those of a proper layout are. -/
theorem Proper.marked {l : Layout} (h : l.Proper) : l.Marked := by
  induction l with
  | comparison c => exact h
  | paren p l q ih => exact ⟨h.1, ih h.2.1, h.2.2⟩
  | negation t l ih => exact ⟨h.1, ih h.2⟩
  | boolean t op l r ihl ihr => exact ⟨h.1.1, ihl h.1.2.1, ihr h.1.2.2⟩

/-- A comparison is made of tokens of its own. -/
theorem Proper.isCompared {c : Comparison} (h : (comparison c).Proper) :
    ∀ t ∈ (comparison c).tokens, t.kind.isCompared = true := by
  obtain ⟨hleft, hop, hright⟩ := h
  have hoperand {t : Token} {o : Operand} (h : Operand.ofToken? t = some o) :
      t.kind.isCompared = true := by
    unfold Operand.ofToken? at h
    split at h <;> simp_all [TokenKind.isCompared]
  have hmark : c.token.kind.isCompared = true := by
    cases hk : c.token.kind <;> simp_all [ComparisonOperator.ofKind?, TokenKind.isCompared]
  simp [tokens, hoperand hleft, hmark, hoperand hright]

/-- The kinds of the tokens of a condition are not those that end it. -/
theorem Marked.kind_ne {l : Layout} (h : l.Marked) :
    ∀ t ∈ l.tokens, t.kind ≠ .semicolon ∧ t.kind ≠ .eof := by
  induction l with
  | comparison c =>
    intro t ht
    have hcompared := Proper.isCompared h t ht
    constructor <;> (intro hk; rw [hk] at hcompared; cases hcompared)
  | paren p l q ih =>
    obtain ⟨hp, hl, hq⟩ := h
    simp only [tokens, List.forall_mem_cons, List.forall_mem_append]
    exact ⟨by simp [hp], ih hl, by simp [hq], by simp⟩
  | negation t l ih =>
    obtain ⟨ht, hl⟩ := h
    simpa [tokens, ht] using ih hl
  | boolean t op l r ihl ihr =>
    obtain ⟨ht, hl, hr⟩ := h
    have hkind : t.kind ≠ .semicolon ∧ t.kind ≠ .eof := by
      cases hk : t.kind <;> simp_all [BooleanOperator.ofKind?]
    simp only [tokens, List.forall_mem_append, List.forall_mem_cons]
    exact ⟨ihl hl, hkind, ihr hr⟩

/-- No layout is empty. -/
theorem tokens_ne_nil (l : Layout) : l.tokens ≠ [] := by
  cases l <;> simp [tokens]

/-- Everything binds. -/
theorem binding_pos (l : Layout) : 0 < l.binding := by
  cases l with
  | boolean t op l r => cases op <;> simp [binding, BooleanOperator.binding]
  | _ => simp [binding]

end Layout

namespace Layout

/-- The frames and the last condition that a layout leaves to be joined when it has been read. -/
def leave : Layout → List Frame → List Frame × Condition
  | comparison c, frames => (frames, .comparison c)
  | paren _ l _, frames => (frames, l.tree)
  | negation t l, frames => l.leave (.negation t :: frames)
  | boolean t op l r, frames => r.leave (.chain op l.tree t :: frames)

/-- What is left makes the whole tree when an operator follows that ends it. -/
theorem join_leave {l : Layout} (hl : l.Proper) (ho : l.isOpen = false) {op : BooleanOperator}
    (hop : op.binding ≤ l.binding) {frames : List Frame} (hf : Frame.binding frames < op.binding) :
    Frame.join op (l.leave frames).1 (l.leave frames).2 = (frames, l.tree) := by
  induction l generalizing op frames with
  | comparison c => exact Frame.join_of_binding_lt hf _
  | paren p l q => exact Frame.join_of_binding_lt hf _
  | negation t l => cases ho
  | boolean t op' l r ihl ihr =>
    obtain ⟨⟨-, -, hr⟩, -, -, hop'⟩ := hl
    -- The right side is joined to the chain by any operator that binds tighter than the chain,
    -- and is no chain itself if there is none.
    match op', r with
    | op', comparison c => exact Frame.join_chain hop hf _ _ _
    | op', paren p r q => exact Frame.join_chain hop hf _ _ _
    | op', negation t r => cases ho
    | .and, boolean t' op'' _ _ => cases op'' <;> simp [binding, BooleanOperator.binding] at hop'
    | .or, boolean t' op'' l' r' =>
      obtain rfl : op = .or := by cases op <;> simp_all [binding, BooleanOperator.binding]
      have hb : BooleanOperator.and.binding ≤ (boolean t' op'' l' r').binding := hop'
      have hf' : Frame.binding (.chain .or l.tree t :: frames) < BooleanOperator.and.binding := by
        rw [Frame.binding_chain]
        decide
      have h := ihr hr ho hb hf'
      simp only [leave] at h ⊢
      rw [Frame.join_or, h]
      rfl

/-- What is left makes the whole tree when everything is closed. -/
theorem close_leave (l : Layout) (frames : List Frame) :
    Frame.close (l.leave frames).1 (l.leave frames).2 = Frame.close frames l.tree := by
  induction l generalizing frames with
  | comparison c => rfl
  | paren p l q => rfl
  | negation t l ih => exact ih _
  | boolean t op l r _ ihr => exact (ihr _).trans (Frame.close_chain op l.tree t frames r.tree)

end Layout

namespace Parser.State

/-- A token that makes an operand begins a comparison. -/
theorem step?_operand {t : Token} {o : Operand} (ht : Operand.ofToken? t = some o) (limit : Nat)
    (h : Header) (frames : List Frame) :
    (condition h frames).step? limit t = some (operator h frames o) := by
  unfold step? beginCondition?
  cases hk : t.kind <;> simp_all [Operand.ofToken?]

/-- The beginning of an expression differs from that of a condition only by its check. -/
theorem run?_expression {tokens : List Token} (hne : tokens ≠ []) (limit : Nat) (h : Header)
    (frames : List Frame) :
    (expression h frames).run? limit tokens =
      if Frame.nesting frames ≤ limit then (condition h frames).run? limit tokens else none := by
  obtain ⟨t, tokens, rfl⟩ := List.exists_cons_of_ne_nil hne
  simp only [run?_cons, step?]
  split <;> rfl

/-- An operator folds the chains that it ends. -/
theorem step?_chain {t : Token} {op : BooleanOperator}
    (ht : BooleanOperator.ofKind? t.kind = some op) (limit : Nat) (h : Header)
    (frames : List Frame) (c : Condition) :
    (conditionEnd h frames c).step? limit t =
      some (condition h
        (.chain op (Frame.join op frames c).2 t :: (Frame.join op frames c).1)) := by
  unfold step? endCondition?
  cases hk : t.kind <;> simp_all [BooleanOperator.ofKind?]
  all_goals
    subst ht
    exact ⟨rfl, rfl⟩

/-- A closing parenthesis closes all that is open inside the innermost pair. -/
theorem step?_rightParen {t : Token} (ht : t.kind = .rightParen) {frames frames' : List Frame}
    {c c' : Condition} (hc : Frame.close frames c = (.paren :: frames', c')) (limit : Nat)
    (h : Header) :
    (conditionEnd h frames c).step? limit t = some (conditionEnd h frames' c') := by
  simp [step?, endCondition?, ht, hc]

/-- Where a limit holds deep inside an expression, its beginning passes the check as well. -/
theorem run?_expression_tokens {l : Layout} {limit : Nat} {h : Header}
    {frames : List Frame} {s : State}
    (hrun : Frame.nesting frames ≤ limit → (condition h frames).run? limit l.tokens =
      if Frame.nesting frames + l.depth ≤ limit then some s else none) :
    (expression h frames).run? limit l.tokens =
      if Frame.nesting frames + l.depth ≤ limit then some s else none := by
  rw [run?_expression l.tokens_ne_nil]
  by_cases hn : Frame.nesting frames ≤ limit
  · rw [if_pos hn, hrun hn]
  · rw [if_neg hn, if_neg (by omega)]

/-- A run over a proper layout folds it, if the limit reaches as deep as the layout does. -/
theorem run?_tokens {l : Layout} (hl : l.Proper) {frames : List Frame}
    (hf : Frame.binding frames < l.binding) {limit : Nat} (hn : Frame.nesting frames ≤ limit)
    (h : Header) :
    (condition h frames).run? limit l.tokens =
      if Frame.nesting frames + l.depth ≤ limit then
        some (conditionEnd h (l.leave frames).1 (l.leave frames).2)
      else none := by
  induction l generalizing frames with
  | comparison c =>
    obtain ⟨hleft, hop, hright⟩ := hl
    simp only [Layout.tokens, Layout.depth, Nat.add_zero, hn, ite_true, run?_cons,
      step?_operand hleft, Option.bind_some]
    simp [step?, hop, hright, Layout.leave]
  | paren p l q ih =>
    obtain ⟨hp, hl, hq⟩ := hl
    have hstep : (condition h frames).step? limit p = some (expression h (.paren :: frames)) := by
      simp [step?, beginCondition?, hp]
    have hf' : Frame.binding (.paren :: frames) < l.binding := l.binding_pos
    have hrun := run?_expression_tokens (h := h) (ih hl hf')
    have hc : Frame.close (l.leave (.paren :: frames)).1 (l.leave (.paren :: frames)).2 =
        (.paren :: frames, l.tree) := l.close_leave _
    have hd : Frame.nesting (.paren :: frames) + l.depth =
        Frame.nesting frames + (Layout.paren p l q).depth := by
      rw [Frame.nesting_paren, Layout.depth, Nat.add_assoc]
    rw [Layout.tokens, run?_cons, hstep, Option.bind_some, run?_append, hrun, hd]
    by_cases hd : Frame.nesting frames + (Layout.paren p l q).depth ≤ limit
    · rw [if_pos hd, if_pos hd, Option.bind_some]
      simp [step?_rightParen hq hc, Layout.leave]
    · rw [if_neg hd, if_neg hd]
      rfl
  | negation t l ih =>
    obtain ⟨ht, hl⟩ := hl
    have hstep : (condition h frames).step? limit t =
        some (expression h (.negation t :: frames)) := by
      simp [step?, beginCondition?, ht]
    have hf' : Frame.binding (.negation t :: frames) < l.binding := l.binding_pos
    have hrun := run?_expression_tokens (h := h) (ih hl hf')
    have hd : Frame.nesting (.negation t :: frames) + l.depth =
        Frame.nesting frames + (Layout.negation t l).depth := by
      rw [Frame.nesting_negation, Layout.depth, Nat.add_assoc]
    rw [Layout.tokens, run?_cons, hstep, Option.bind_some, hrun, hd]
    rfl
  | boolean t op l r ihl ihr =>
    obtain ⟨⟨ht, hl, hr⟩, ho, hopl, hopr⟩ := hl
    simp only [Layout.binding] at hf
    have hf' : Frame.binding (.chain op l.tree t :: frames) < r.binding := by
      rwa [Frame.binding_chain]
    have hright := ihr hr hf' (by rwa [Frame.nesting_chain])
    rw [Layout.tokens, run?_append, ihl hl (Nat.lt_of_lt_of_le hf hopl) hn]
    by_cases hd : Frame.nesting frames + l.depth ≤ limit
    · rw [if_pos hd, Option.bind_some, run?_cons, step?_chain ht, Option.bind_some,
        Layout.join_leave hl ho hopl hf, hright, Frame.nesting_chain]
      have hiff : Frame.nesting frames + r.depth ≤ limit ↔
          Frame.nesting frames + (Layout.boolean t op l r).depth ≤ limit := by
        rw [Layout.depth]
        omega
      exact if_congr hiff rfl rfl
    · rw [if_neg hd, Layout.depth, if_neg (by omega)]
      rfl

end Parser.State

end SelectQuery
