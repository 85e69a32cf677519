import SelectQuery.Proofs.Marked
import SelectQuery.Proofs.WellFormed

/-!
# Layouts without one of their pairs

What is left of a layout when a pair of parentheses is taken out of it (`Layout.Drop`). In the
layout of a condition's text no pair can be spared but one around a negation that nothing follows
inside the parentheses around it (`Condition.proper_drop_iff`).
-/

namespace SelectQuery

namespace Layout

/-- Taking one pair of parentheses out of a layout leaves another: the pair that stands around an
inner layout, with the given tokens in front of it and behind it. -/
inductive Drop (inner : Layout) : List Token → List Token → Layout → Layout → Prop where
  | here {p q : Token} : Drop inner [] [] (paren p inner q) inner
  | paren {p q : Token} {front back : List Token} {l l' : Layout} : Drop inner front back l l' →
      Drop inner (p :: front) (back ++ [q]) (paren p l q) (paren p l' q)
  | negation {t : Token} {front back : List Token} {l l' : Layout} : Drop inner front back l l' →
      Drop inner (t :: front) back (negation t l) (negation t l')
  | left {t : Token} {op : BooleanOperator} {front back : List Token} {l l' r : Layout} :
      Drop inner front back l l' →
      Drop inner front (back ++ t :: r.tokens) (boolean t op l r) (boolean t op l' r)
  | right {t : Token} {op : BooleanOperator} {front back : List Token} {l r r' : Layout} :
      Drop inner front back r r' →
      Drop inner (l.tokens ++ t :: front) back (boolean t op l r) (boolean t op l r')

namespace Drop

variable {inner l l' : Layout} {front back : List Token}

/-- The tokens around the pair and inside it are left. -/
theorem tokens_eq (h : Drop inner front back l l') :
    l'.tokens = front ++ inner.tokens ++ back := by
  induction h with
  | here => simp
  | paren _ ih => simp [tokens, ih]
  | negation _ ih => simp [tokens, ih]
  | left _ ih => simp [tokens, ih]
  | right _ ih => simp [tokens, ih]

/-- It is the same tree. -/
theorem tree_eq (h : Drop inner front back l l') : l'.tree = l.tree := by
  induction h with
  | here => rfl
  | paren _ ih => exact ih
  | negation _ ih => rw [tree, tree, ih]
  | left _ ih => rw [tree, tree, ih]
  | right _ ih => rw [tree, tree, ih]

/-- The tokens are still of the right kinds. -/
theorem marked (h : Drop inner front back l l') (hl : l.Marked) : l'.Marked := by
  induction h with
  | here => exact hl.2.1
  | paren _ ih => exact ⟨hl.1, ih hl.2.1, hl.2.2⟩
  | negation _ ih => exact ⟨hl.1, ih hl.2⟩
  | left _ ih => exact ⟨hl.1, ih hl.2.1, hl.2.2⟩
  | right _ ih => exact ⟨hl.1, hl.2.1, ih hl.2.2⟩

/-- What is open inside the last pair is open without it. -/
theorem isOpen_of_back_eq_nil (h : Drop inner front back l l') (hback : back = [])
    (hinner : inner.isOpen) : l'.isOpen := by
  induction h with
  | here => exact hinner
  | paren _ _ => simp at hback
  | negation _ _ => rfl
  | left _ _ => simp at hback
  | right _ ih => exact ih hback

/-- Taking out a pair that is not the last opens nothing at the end. -/
theorem isOpen_of_back_ne_nil (h : Drop inner front back l l') (hback : back ≠ []) :
    l'.isOpen = l.isOpen := by
  induction h with
  | here => exact absurd rfl hback
  | paren _ _ => rfl
  | negation _ _ => rfl
  | left _ _ => rfl
  | right _ ih => exact ih hback

end Drop

private theorem split_closed {x y x' y' : List Token} {q q' : Token} (hq : q.kind = .rightParen)
    (hq' : q'.kind = .rightParen) (hx : Token.depthAfter? 0 x = some 0)
    (hx' : Token.depthAfter? 0 x' = some 0) (h : x ++ q :: y = x' ++ q' :: y') :
    x = x' ∧ q = q' ∧ y = y' := by
  -- Whichever ends first, a parenthesis behind it would close nothing.
  have hend {a b : List Token} {t : Token} (ht : t.kind = .rightParen)
      (ha : Token.depthAfter? 0 a = some 0) : Token.depthAfter? 0 (a ++ t :: b) ≠ some 0 := by
    simp [Token.depthAfter?_append, ha, Token.depthAfter?, TokenKind.depthAfter?, ht]
  rcases List.append_eq_append_iff.mp h with ⟨z, rfl, hz⟩ | ⟨z, rfl, hz⟩
  · cases z with
    | nil => exact ⟨(List.append_nil x).symm, List.cons.inj hz⟩
    | cons v z =>
      obtain rfl : q = v := (List.cons.inj hz).1
      exact absurd hx' (hend hq hx)
  · cases z with
    | nil => exact ⟨List.append_nil x', (List.cons.inj hz).imp Eq.symm Eq.symm⟩
    | cons v z =>
      obtain rfl : q' = v := (List.cons.inj hz).1
      exact absurd hx (hend hq' hx')

private theorem depthAfter?_ne_zero {front inside rest : List Token} {p : Token}
    (hp : p.kind = .leftParen) (hinside : Token.depthAfter? 0 (inside ++ rest) = some 0) :
    Token.depthAfter? 0 (front ++ p :: inside) ≠ some 0 := by
  intro h
  rw [Token.depthAfter?_append] at h
  obtain ⟨depth, -, h⟩ := Option.bind_eq_some_iff.mp h
  rw [Token.depthAfter?, hp] at h
  exact Nat.not_lt_zero depth (Token.lt_of_depthAfter? hinside h)

/-- Every matching pair among the tokens of a layout can be taken out of it. -/
theorem Marked.exists_drop {l : Layout} (h : l.Marked) {front inside back : List Token}
    {p q : Token} (hp : p.kind = .leftParen) (hq : q.kind = .rightParen)
    (hinside : Token.depthAfter? 0 inside = some 0)
    (htokens : l.tokens = front ++ p :: (inside ++ q :: back)) :
    ∃ inner l', Drop inner front back l l' ∧ inner.tokens = inside := by
  induction l generalizing front back with
  | comparison c =>
    have hcompared := Proper.isCompared h p (by rw [htokens]; simp)
    rw [hp] at hcompared
    cases hcompared
  | paren p' l q' ih =>
    obtain ⟨-, hl, hq'⟩ := h
    cases front with
    | nil =>
      obtain ⟨rfl, hrest⟩ := List.cons.inj htokens
      obtain ⟨rfl, rfl, rfl⟩ := split_closed hq' hq (hl.depthAfter? 0) hinside hrest
      exact ⟨l, l, .here, rfl⟩
    | cons u front =>
      obtain ⟨rfl, hrest⟩ := List.cons.inj htokens
      rcases List.eq_nil_or_concat back with rfl | ⟨back, v, rfl⟩
      · -- The layout inside would end before the parenthesis is closed.
        have hend : l.tokens ++ [q'] = (front ++ p :: inside) ++ [q] := by simpa using hrest
        have hopen := hl.depthAfter? 0
        rw [(List.append_inj' hend rfl).1] at hopen
        have hinside : Token.depthAfter? 0 (inside ++ []) = some 0 := by simpa using hinside
        exact absurd hopen (depthAfter?_ne_zero hp hinside)
      · have hend : l.tokens ++ [q'] = (front ++ p :: (inside ++ q :: back)) ++ [v] := by
          simpa using hrest
        obtain ⟨hltokens, hv⟩ := List.append_inj' hend rfl
        obtain rfl := List.head_eq_of_cons_eq hv
        obtain ⟨inner, l', hdrop, hinner⟩ := ih hl hltokens
        rw [List.concat_eq_append]
        exact ⟨inner, _, .paren hdrop, hinner⟩
  | negation t l ih =>
    obtain ⟨ht, hl⟩ := h
    cases front with
    | nil =>
      obtain rfl : t = p := (List.cons.inj htokens).1
      rw [ht] at hp
      cases hp
    | cons u front =>
      obtain ⟨rfl, hrest⟩ := List.cons.inj htokens
      obtain ⟨inner, l', hdrop, hinner⟩ := ih hl hrest
      exact ⟨inner, _, .negation hdrop, hinner⟩
  | boolean t op l r ihl ihr =>
    obtain ⟨ht, hl, hr⟩ := h
    have hne : t.kind ≠ .leftParen ∧ t.kind ≠ .rightParen := by
      cases hk : t.kind <;> simp_all [BooleanOperator.ofKind?]
    rcases List.append_eq_append_iff.mp htokens with ⟨z, rfl, hz⟩ | ⟨z, hz, hrest⟩
    · cases z with
      | nil =>
        obtain rfl : t = p := (List.cons.inj hz).1
        exact absurd hp hne.1
      | cons u z =>
        obtain ⟨rfl, hrtokens⟩ := List.cons.inj hz
        obtain ⟨inner, r', hdrop, hinner⟩ := ihr hr hrtokens
        exact ⟨inner, _, .right hdrop, hinner⟩
    · cases z with
      | nil =>
        obtain rfl : p = t := (List.cons.inj hrest).1
        exact absurd hp hne.1
      | cons u z =>
        obtain ⟨rfl, hbehind⟩ := List.cons.inj hrest
        rcases List.append_eq_append_iff.mp hbehind with ⟨w, rfl, hw⟩ | ⟨w, rfl, hw⟩
        · cases w with
          | nil =>
            obtain rfl : q = t := (List.cons.inj hw).1
            exact absurd hq hne.2
          | cons v w =>
            obtain ⟨rfl, rfl⟩ := List.cons.inj hw
            obtain ⟨inner, l', hdrop, hinner⟩ := ihl hl hz
            exact ⟨inner, _, .left hdrop, hinner⟩
        · -- The left side would end before the parenthesis is closed.
          have hopen := hl.depthAfter? 0
          rw [hz] at hopen
          exact absurd hopen (depthAfter?_ne_zero hp hinside)

/-- A pair around the whole layout is taken out, or one inside of it. -/
theorem Drop.of_fence {inner l l' : Layout} {front back : List Token}
    (h : Drop inner front back (l.fence true) l') :
    (inner = l ∧ l' = l ∧ back = []) ∨ ∃ front' back' l'',
      Drop inner front' back' l l'' ∧ back = back' ++ [.ofKind .rightParen] ∧
        l' = l''.fence true := by
  change Drop inner front back (.paren (.ofKind .leftParen) l (.ofKind .rightParen)) l' at h
  cases h with
  | here => exact .inl ⟨rfl, rfl, rfl⟩
  | paren h => exact .inr ⟨_, _, _, h, rfl, rfl⟩

end Layout

/-- A closing parenthesis comes next, or nothing does. -/
def Token.AtClose (tokens : List Token) : Prop := ∀ t ∈ tokens.head?, t.kind = .rightParen

private theorem Token.atClose_append {tokens tokens' : List Token} {t : Token} :
    AtClose (tokens ++ t :: tokens') ↔
      AtClose tokens ∧ (tokens = [] → t.kind = .rightParen) := by
  cases tokens <;> simp [AtClose]

private theorem Token.atClose_concat {tokens : List Token} :
    AtClose (tokens ++ [.ofKind .rightParen]) ↔ AtClose tokens := by
  simp [atClose_append]

namespace Condition

/-- Whether the condition is a `NOT`. -/
def isNegation : Condition → Bool
  | negation _ _ => true
  | _ => false

private theorem layout_injective {c c' : Condition} (h : c.layout = c'.layout) : c = c' := by
  rw [← c.tree_layout, h, c'.tree_layout]

private theorem isOpen_layout {c : Condition} (h : c.isNegation) : c.layout.isOpen := by
  cases c with
  | negation t e => rfl
  | _ => cases h

private theorem binding_drop {c : Condition} {inner l' : Layout} {front back : List Token}
    (h : Layout.Drop inner front back c.layout l') : l'.binding = c.layout.binding := by
  cases c with
  | comparison c => cases h
  | negation t e =>
    rw [layout] at h
    cases h
    rfl
  | boolean t op a b =>
    rw [layout] at h
    cases h <;> rfl

section

variable {x a : Condition} {op : BooleanOperator} {front back : List Token} {l' : Layout}

private theorem drop_left_iff
    (ih : ∀ {front back l'}, Layout.Drop x.layout front back a.layout l' →
      (l'.Proper ↔ x.isNegation ∧ Token.AtClose back))
    (h : Layout.Drop x.layout front back (a.layout.fence (a.needsParens op .left)) l') :
    (l'.Proper ∧ l'.isOpen = false ∧ op.binding ≤ l'.binding) ↔
      x.isNegation ∧ Token.AtClose back ∧ back ≠ [] := by
  have hlt := op.binding_lt_three
  have hopen := a.decorated_layout.isOpen_fence op .left
  have hbinding := a.decorated_layout.le_binding_fence op
  cases hparens : a.needsParens op .left with
  | true =>
    rw [hparens] at h
    rcases h.of_fence with ⟨-, rfl, rfl⟩ | ⟨front', back', l'', hdrop, rfl, rfl⟩
    · -- Without its parentheses the side would be open, or would bind too loosely.
      have hne : ¬(a.layout.isOpen = false ∧ op.binding ≤ a.layout.binding) := by
        rintro ⟨hopen, hle⟩
        cases a with
        | comparison c => cases hparens
        | negation t e => cases hopen
        | boolean t op' l r =>
          have hop : op'.binding < op.binding := by simpa [needsParens] using hparens
          exact Nat.not_lt.mpr hle hop
      simp [hne]
    · rw [Token.atClose_concat, ← and_assoc, ← and_assoc, ← ih hdrop]
      simp [Layout.fence, Layout.Proper, Layout.isOpen, Layout.binding, Nat.le_of_lt hlt]
  | false =>
    rw [hparens] at h hopen hbinding
    rw [ih h, binding_drop h]
    constructor
    · rintro ⟨⟨hx, hclose⟩, hclosed, -⟩
      refine ⟨hx, hclose, fun hback ↦ ?_⟩
      have hopen' := h.isOpen_of_back_eq_nil hback (isOpen_layout hx)
      rw [hclosed] at hopen'
      cases hopen'
    · rintro ⟨hx, hclose, hback⟩
      exact ⟨⟨hx, hclose⟩, (h.isOpen_of_back_ne_nil hback).trans hopen, hbinding⟩

private theorem drop_right_iff (ha : a.WellFormed)
    (ih : ∀ {front back l'}, Layout.Drop x.layout front back a.layout l' →
      (l'.Proper ↔ x.isNegation ∧ Token.AtClose back))
    (h : Layout.Drop x.layout front back (a.layout.fence (a.needsParens op .right)) l') :
    (l'.Proper ∧ op.binding < l'.binding) ↔ x.isNegation ∧ Token.AtClose back := by
  have hlt := op.binding_lt_three
  have hbinding := a.decorated_layout.lt_binding_fence op
  cases hparens : a.needsParens op .right with
  | true =>
    rw [hparens] at h
    rcases h.of_fence with ⟨hinner, rfl, rfl⟩ | ⟨front', back', l'', hdrop, rfl, rfl⟩
    · obtain rfl := layout_injective hinner
      cases x with
      | comparison c => cases hparens
      | negation t e => exact iff_of_true ⟨ha.proper_layout, hlt⟩ ⟨rfl, by simp [Token.AtClose]⟩
      | boolean t op' l r =>
        have hop : op'.binding ≤ op.binding := by
          simp only [needsParens, Bool.or_eq_true, Bool.and_eq_true, decide_eq_true_eq,
            beq_iff_eq] at hparens
          omega
        simp [layout, Layout.binding, Nat.not_lt.mpr hop, isNegation]
    · rw [Token.atClose_concat, ← ih hdrop]
      simp [Layout.fence, Layout.Proper, Layout.binding, hlt]
  | false =>
    rw [hparens] at h hbinding
    rw [ih h, binding_drop h]
    exact and_iff_left hbinding

end

/-- In the layout of a text no pair can be spared but one around a negation with nothing behind it,
or a closing parenthesis. -/
theorem proper_drop_iff {x c : Condition} (hc : c.WellFormed) {front back : List Token}
    {l' : Layout} (h : Layout.Drop x.layout front back c.layout l') :
    l'.Proper ↔ x.isNegation ∧ Token.AtClose back := by
  induction c generalizing front back l' with
  | comparison c => cases h
  | negation t e ih =>
    rw [layout] at h
    cases h with
    | negation h => exact (and_iff_right hc.1.1).trans (ih hc.2 h)
  | boolean t op a b iha ihb =>
    obtain ⟨⟨-, hl, hr⟩, hopen, hbl, hbr⟩ := hc.proper_layout
    obtain ⟨⟨hkind, -⟩, ha, hb⟩ := hc
    rw [layout] at h
    cases h with
    | @left _ _ _ back l l' _ h =>
      have hclose : Token.AtClose (back ++ t :: (b.layout.fence (b.needsParens op .right)).tokens) ↔
          Token.AtClose back ∧ back ≠ [] := by
        have hne : t.kind ≠ .rightParen := by
          rintro hk
          rw [hk] at hkind
          cases hkind
        simp [Token.atClose_append, hne]
      rw [hclose, ← drop_left_iff (iha ha) h, Layout.Proper]
      simp [hkind, hr, hbr]
    | right h =>
      rw [← drop_right_iff hb (ihb hb) h, Layout.Proper]
      simp [hkind, hl, hopen, hbl]

/-- What stands in a pair of the layout of a text is the layout of a text as well. -/
theorem WellFormed.exists_of_drop {c : Condition} (hc : c.WellFormed) {inner l' : Layout}
    {front back : List Token} (h : Layout.Drop inner front back c.layout l') :
    ∃ x : Condition, x.WellFormed ∧ inner = x.layout := by
  have hside {a : Condition} (ha : a.WellFormed) {parens : Bool} {front back : List Token}
      {l' : Layout} (h : Layout.Drop inner front back (a.layout.fence parens) l')
      (ih : ∀ {front back l'}, Layout.Drop inner front back a.layout l' →
        ∃ x : Condition, x.WellFormed ∧ inner = x.layout) :
      ∃ x : Condition, x.WellFormed ∧ inner = x.layout := by
    cases parens with
    | false => exact ih h
    | true =>
      rcases h.of_fence with ⟨hinner, -, -⟩ | ⟨_, _, _, hdrop, -, -⟩
      · exact ⟨a, ha, hinner⟩
      · exact ih hdrop
  induction c generalizing front back l' with
  | comparison c => cases h
  | negation t e ih =>
    rw [layout] at h
    cases h with
    | negation h => exact ih hc.2 h
  | boolean t op a b iha ihb =>
    obtain ⟨-, ha, hb⟩ := hc
    rw [layout] at h
    cases h with
    | left h => exact hside ha h (iha ha)
    | right h => exact hside hb h (ihb hb)

/-- The tokens that are left of the layout of a text without one of its pairs are those of a proper
layout. It stands for the same condition exactly if the pair could be spared. -/
theorem WellFormed.exists_proper_of_drop {x c : Condition} (hc : c.WellFormed)
    {front back : List Token} {l' : Layout} (h : Layout.Drop x.layout front back c.layout l') :
    ∃ l : Layout, l.Proper ∧ l.tokens = front ++ x.layout.tokens ++ back ∧
      (l.tree.bare = c.bare ↔ x.isNegation ∧ Token.AtClose back) := by
  have hmarked := h.marked hc.proper_layout.marked
  have htree : l'.tree = c := by rw [h.tree_eq, c.tree_layout]
  obtain ⟨l, hl, htokens⟩ := hmarked.exists_proper
  refine ⟨l, hl, by rw [htokens, h.tokens_eq], ?_⟩
  rw [← proper_drop_iff hc h]
  constructor
  · intro hbare
    obtain rfl := hl.marked.eq_of_tokens hmarked htokens (by rw [hbare, htree])
    exact hl
  · intro hl'
    have hrange := Splitting.range?_tokens hl
    rw [htokens, Splitting.range?_tokens hl', htree] at hrange
    rw [Option.some.inj hrange]

end Condition

end SelectQuery
