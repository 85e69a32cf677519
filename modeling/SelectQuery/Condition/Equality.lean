import SelectQuery.Condition

/-!
# Equality of conditions

Two conditions are equal when they have the same shape and agree in every token, operator and
operand. `Condition.allAgree` decides this with a list of pairs still to be compared, so that
the length of a chain costs no stack space; `beq_iff_eq` says that its answer is equality.
-/

namespace SelectQuery.Condition

/-- Whether the two conditions of every pair agree. Each step takes one pair and puts back the
pairs of its children. -/
def allAgree : List (Condition × Condition) → Bool
  | [] => true
  | (comparison a, comparison b) :: pairs => a == b && allAgree pairs
  | (boolean t op l r, boolean t' op' l' r') :: pairs =>
    t == t' && op == op' && allAgree ((r, r') :: (l, l') :: pairs)
  | (negation t e, negation t' e') :: pairs => t == t' && allAgree ((e, e') :: pairs)
  | _ :: _ => false
termination_by pairs => pairs.foldr (fun p size ↦ sizeOf p.1 + size) 0
decreasing_by all_goals simp; try omega

/-- Conditions are compared by the worklist. -/
instance : BEq Condition where
  beq a b := allAgree [(a, b)]

/-- The worklist answers yes exactly when the two conditions of every pair are equal. -/
theorem allAgree_iff (pairs : List (Condition × Condition)) :
    allAgree pairs ↔ ∀ p ∈ pairs, p.1 = p.2 := by
  fun_induction allAgree pairs with
  | case1 => simp
  | case2 a b pairs ih => simp [ih]
  | case3 t op l r t' op' l' r' pairs ih =>
    simp only [Bool.and_eq_true, beq_iff_eq, ih, List.forall_mem_cons, boolean.injEq]
    exact ⟨fun ⟨⟨ht, ho⟩, hr, hl, hp⟩ ↦ ⟨⟨ht, ho, hl, hr⟩, hp⟩,
      fun ⟨⟨ht, ho, hl, hr⟩, hp⟩ ↦ ⟨⟨ht, ho⟩, hr, hl, hp⟩⟩
  | case4 t e t' e' pairs ih =>
    simp only [Bool.and_eq_true, beq_iff_eq, ih, List.forall_mem_cons, negation.injEq,
      and_assoc]
  | case5 p pairs hc hb hn =>
    obtain ⟨x, y⟩ := p
    simp only [Bool.false_eq_true, List.forall_mem_cons, false_iff, not_and]
    intro he
    subst he
    cases x with
    | comparison c => exact (hc c c rfl).elim
    | boolean t op l r => exact (hb t op l r t op l r rfl).elim
    | negation t e => exact (hn t e t e rfl).elim

/-- The worklist's answer is equality. -/
instance : LawfulBEq Condition where
  eq_of_beq {a b} h := (allAgree_iff [(a, b)]).mp h (a, b) (List.mem_singleton.mpr rfl)
  rfl {a} := (allAgree_iff [(a, a)]).mpr (by simp)

/-- Equality of conditions is decided by the worklist. -/
instance : DecidableEq Condition := fun a b ↦ decidable_of_iff (a == b) beq_iff_eq

end SelectQuery.Condition
