import Mathlib.Data.Multiset.AddSub
import Mathlib.Algebra.BigOperators.Group.Multiset.Basic
import SelectQuery.Proofs.Nodes

/-!
# Comparing conditions in any order

Conditions are compared by a list of pairs that still have to be compared. Here the pairs are taken
in any order (`Comparing.Step`): a comparison takes no more steps than the first condition has
nodes, and however it goes it ends with the same answer, which is yes exactly if the conditions
agree in every node (`beq_in_any_order`).
-/

namespace SelectQuery

/-- The tokens agree in kind, text and place. -/
structure Token.Agree (t u : Token) : Prop where
  kind : t.kind = u.kind
  text : t.text = u.text
  span : t.span = u.span

/-- Tokens agree in all their fields only if they are equal. -/
theorem Token.agree_iff {t u : Token} : t.Agree u ↔ t = u := by
  constructor
  · rintro ⟨hkind, htext, hspan⟩
    obtain ⟨kind, text, span⟩ := t
    rw [Token.mk.injEq]
    exact ⟨hkind, htext, hspan⟩
  · rintro rfl
    exact ⟨rfl, rfl, rfl⟩

namespace Condition

/-- The conditions have one shape, and at every node equal tokens, operators and operands. -/
inductive Agree : Condition → Condition → Prop where
  | comparison {a b : Comparison} : a.token.Agree b.token → a.op = b.op → a.left = b.left →
      a.right = b.right → Agree (comparison a) (comparison b)
  | boolean {t t' : Token} {op op' : BooleanOperator} {l l' r r' : Condition} : t.Agree t' →
      op = op' → Agree l l' → Agree r r' → Agree (boolean t op l r) (boolean t' op' l' r')
  | negation {t t' : Token} {e e' : Condition} : t.Agree t' → Agree e e' →
      Agree (negation t e) (negation t' e')

/-- Conditions that agree in every node are equal. -/
theorem agree_iff {c d : Condition} : c.Agree d ↔ c = d := by
  constructor
  · intro h
    induction h with
    | @comparison a b htoken hop hleft hright =>
      obtain ⟨token, op, left, right⟩ := a
      rw [comparison.injEq, Comparison.mk.injEq]
      exact ⟨Token.agree_iff.mp htoken, hop, hleft, hright⟩
    | boolean htoken hop _ _ ihl ihr => rw [Token.agree_iff.mp htoken, hop, ihl, ihr]
    | negation htoken _ ih => rw [Token.agree_iff.mp htoken, ih]
  · rintro rfl
    induction c with
    | comparison c => exact .comparison (Token.agree_iff.mpr rfl) rfl rfl rfl
    | boolean t op l r ihl ihr => exact .boolean (Token.agree_iff.mpr rfl) rfl ihl ihr
    | negation t e ih => exact .negation (Token.agree_iff.mpr rfl) ih

/-- What is left to be compared of a pair when the topmost nodes agree: the pairs of their
children, from the left. -/
def children? : Condition × Condition → Option (List (Condition × Condition))
  | (comparison a, comparison b) => if a = b then some [] else none
  | (boolean t op l r, boolean t' op' l' r') =>
    if t = t' ∧ op = op' then some [(l, l'), (r, r')] else none
  | (negation t e, negation t' e') => if t = t' then some [(e, e')] else none
  | _ => none

/-- Where something is left to be compared, the topmost nodes of the pair are the same. -/
theorem exists_of_children? {p : Condition × Condition} {children : List (Condition × Condition)}
    (h : children? p = some children) :
    (∃ a, p = (comparison a, comparison a) ∧ children = []) ∨
    (∃ t op l l' r r', p = (boolean t op l r, boolean t op l' r') ∧
      children = [(l, l'), (r, r')]) ∨
    ∃ t e e', p = (negation t e, negation t e') ∧ children = [(e, e')] := by
  unfold children? at h
  split at h
  next a b =>
    obtain ⟨rfl, rfl⟩ : a = b ∧ [] = children := by simpa using h
    exact .inl ⟨a, rfl, rfl⟩
  next t op l r t' op' l' r' =>
    obtain ⟨⟨rfl, rfl⟩, rfl⟩ : (t = t' ∧ op = op') ∧ [(l, l'), (r, r')] = children := by
      simpa using h
    exact .inr (.inl ⟨t, op, l, l', r, r', rfl, rfl⟩)
  next t e t' e' =>
    obtain ⟨rfl, rfl⟩ : t = t' ∧ [(e, e')] = children := by simpa using h
    exact .inr (.inr ⟨t, e, e', rfl, rfl⟩)
  next => cases h

/-- If the topmost nodes of a pair agree, the rest decides. -/
theorem eq_iff_of_children? {p : Condition × Condition} {children : List (Condition × Condition)}
    (h : children? p = some children) : p.1 = p.2 ↔ ∀ q ∈ children, q.1 = q.2 := by
  rcases exists_of_children? h with ⟨a, rfl, rfl⟩ | ⟨t, op, l, l', r, r', rfl, rfl⟩ |
    ⟨t, e, e', rfl, rfl⟩ <;> simp

/-- If they do not, the conditions of the pair differ. -/
theorem ne_of_children? {p : Condition × Condition} (h : children? p = none) : p.1 ≠ p.2 := by
  obtain ⟨c, d⟩ := p
  intro heq
  obtain rfl : c = d := heq
  cases c <;> simp [children?] at h

/-- Of the nodes of a pair's first condition the topmost is done with. -/
theorem length_nodes_of_children? {p : Condition × Condition}
    {children : List (Condition × Condition)} (h : children? p = some children) :
    (Multiset.map (fun q : Condition × Condition ↦ q.1.nodes.length) children).sum + 1 =
      p.1.nodes.length := by
  rcases exists_of_children? h with ⟨a, rfl, rfl⟩ | ⟨t, op, l, l', r, r', rfl, rfl⟩ |
    ⟨t, e, e', rfl, rfl⟩ <;> simp [nodes]

/-- The worklist takes the pair at its head and puts the children back there, the right one
first. -/
theorem allAgree_cons (p : Condition × Condition) (pairs : List (Condition × Condition)) :
    allAgree (p :: pairs) =
      match children? p with
      | some children => allAgree (children.reverse ++ pairs)
      | none => false := by
  cases h : children? p with
  | some children =>
    rcases exists_of_children? h with ⟨a, rfl, rfl⟩ | ⟨t, op, l, l', r, r', rfl, rfl⟩ |
      ⟨t, e, e', rfl, rfl⟩ <;> simp [allAgree]
  | none =>
    rw [← Bool.not_eq_true, allAgree_iff]
    intro hall
    exact ne_of_children? h (hall p (List.mem_cons_self ..))

/-- How far a comparison has come: some pairs have still to be compared, or nodes that differ have
been found. -/
inductive Comparing where
  | pending (pairs : Multiset (Condition × Condition))
  | differing

namespace Comparing

/-- One step takes any one of the pairs. It puts back the pairs of the children, or finds that the
topmost nodes differ. -/
inductive Step : Comparing → Comparing → Prop where
  | agree {p : Condition × Condition} {children : List (Condition × Condition)}
      {rest : Multiset (Condition × Condition)} : children? p = some children →
      Step (pending (p ::ₘ rest)) (pending (children + rest))
  | differ {p : Condition × Condition} {rest : Multiset (Condition × Condition)} :
      children? p = none → Step (pending (p ::ₘ rest)) differing

/-- Some number of steps, one after the other. -/
inductive Steps : Nat → Comparing → Comparing → Prop where
  | none (s : Comparing) : Steps 0 s s
  | cons {n : Nat} {s s' s'' : Comparing} : Step s s' → Steps n s' s'' → Steps (n + 1) s s''

/-- The comparison of two conditions before the first step. -/
def start (a b : Condition) : Comparing := pending {(a, b)}

/-- Where a comparison ends: at no pairs if the answer is yes. -/
def ofAnswer (answer : Bool) : Comparing := if answer then pending 0 else differing

/-- What would have to be equal for the answer to be yes. -/
def Holds : Comparing → Prop
  | pending pairs => ∀ p ∈ pairs, p.1 = p.2
  | differing => False

/-- How many nodes of first conditions have still to be compared. -/
def unseen : Comparing → Nat
  | pending pairs => (pairs.map fun p ↦ p.1.nodes.length).sum
  | differing => 0

variable {s s' : Comparing}

/-- A step does not change what the answer depends on. -/
theorem Step.holds_iff (h : Step s s') : s.Holds ↔ s'.Holds := by
  cases h with
  | @agree p children rest hp =>
    simp only [Holds, Multiset.forall_mem_cons, eq_iff_of_children? hp, Multiset.mem_add,
      Multiset.mem_coe, or_imp, forall_and]
  | @differ p rest hp =>
    have hne := ne_of_children? hp
    simp [Holds, hne]

/-- A step is done with one node at least. -/
theorem Step.unseen_lt (h : Step s s') : s'.unseen < s.unseen := by
  cases h with
  | @agree p children rest hp =>
    have hlength := length_nodes_of_children? hp
    simp only [unseen, Multiset.map_add, Multiset.sum_add, Multiset.map_cons, Multiset.sum_cons]
    omega
  | @differ p rest hp =>
    have hpos : 0 < p.1.nodes.length := by cases p.1 <;> simp [nodes]
    simp only [unseen, Multiset.map_cons, Multiset.sum_cons]
    omega

/-- As long as there are pairs there is a step, whichever pair is taken. -/
theorem exists_step (p : Condition × Condition) (rest : Multiset (Condition × Condition)) :
    ∃ s', Step (pending (p ::ₘ rest)) s' := by
  cases hp : children? p with
  | some children => exact ⟨_, .agree hp⟩
  | none => exact ⟨_, .differ hp⟩

/-- A comparison has no step left exactly if it is at one of the two answers. -/
theorem no_step_iff : (∀ s', ¬ Step s s') ↔ ∃ answer, s = ofAnswer answer := by
  constructor
  · intro hend
    cases s with
    | differing => exact ⟨false, rfl⟩
    | pending pairs =>
      rcases pairs.empty_or_exists_mem with rfl | ⟨p, hp⟩
      · exact ⟨true, rfl⟩
      · obtain ⟨rest, rfl⟩ := Multiset.exists_cons_of_mem hp
        obtain ⟨s', hs'⟩ := exists_step p rest
        exact absurd hs' (hend s')
  · rintro ⟨answer, rfl⟩ s' hs'
    have hlt := hs'.unseen_lt
    cases answer <;> simp [ofAnswer, unseen] at hlt

/-- Nor do some steps. -/
theorem Steps.holds_iff {n : Nat} (h : Steps n s s') : s.Holds ↔ s'.Holds := by
  induction h with
  | none s => exact Iff.rfl
  | cons hstep _ ih => exact hstep.holds_iff.trans ih

/-- There are no more steps than nodes to be compared. -/
theorem Steps.add_unseen_le {n : Nat} (h : Steps n s s') : n + s'.unseen ≤ s.unseen := by
  induction h with
  | none s => exact Nat.le_of_eq (Nat.zero_add _)
  | cons hstep _ ih =>
    have hlt := hstep.unseen_lt
    omega

/-- The two answers say that the conditions are equal, and that they are not. -/
theorem holds_ofAnswer_iff (answer : Bool) : (ofAnswer answer).Holds ↔ answer = true := by
  cases answer <;> simp [ofAnswer, Holds]

/-- An answer that is reached from the start is whether the conditions are equal. -/
theorem Steps.answer_eq {n : Nat} {a b : Condition} {answer : Bool}
    (h : Steps n (start a b) (ofAnswer answer)) : answer = (a == b) := by
  have hstart : (start a b).Holds ↔ a = b := by simp [start, Holds]
  rw [Bool.eq_iff_iff, beq_iff_eq, ← holds_ofAnswer_iff, ← h.holds_iff, hstart]

/-- The worklist takes steps of a comparison until it has an answer. -/
theorem exists_steps_allAgree (pairs : List (Condition × Condition)) :
    ∃ n, Steps n (pending pairs) (ofAnswer (allAgree pairs)) := by
  -- The worklist is a list with fewer nodes after each step, if not shorter.
  generalize hm : (pending pairs).unseen = m
  induction m using Nat.strongRecOn generalizing pairs with
  | ind m ih =>
    cases pairs with
    | nil =>
      rw [show allAgree [] = true by simp [allAgree]]
      exact ⟨0, .none _⟩
    | cons p pairs =>
      rw [allAgree_cons, ← Multiset.cons_coe]
      cases hp : children? p with
      | none => exact ⟨1, .cons (.differ hp) (.none _)⟩
      | some children =>
        have hstep : Step (pending (p ::ₘ pairs))
            (pending (children.reverse ++ pairs : List _)) := by
          rw [← Multiset.coe_add, Multiset.coe_reverse]
          exact .agree hp
        have hlt := hstep.unseen_lt
        rw [Multiset.cons_coe, hm] at hlt
        obtain ⟨n, hn⟩ := ih _ hlt _ rfl
        exact ⟨n + 1, .cons hstep hn⟩

end Comparing

/-- Comparing conditions is an equivalence, and the answer is yes exactly if they agree in every
node. In whatever order the pairs are taken, a comparison ends after as many steps as the first
condition has nodes at most, and where it ends is this answer; one of the orders is that of the
worklist. -/
theorem beq_in_any_order :
    Equivalence (fun a b : Condition ↦ (a == b) = true) ∧
      ∀ a b : Condition, ((a == b) = true ↔ a.Agree b) ∧
        (∀ n s, Comparing.Steps n (.start a b) s →
          n ≤ a.nodes.length ∧ ((∀ s', ¬ Comparing.Step s s') ↔ s = .ofAnswer (a == b))) ∧
        ∃ n, Comparing.Steps n (.start a b) (.ofAnswer (a == b)) := by
  refine ⟨?_, fun a b ↦ ⟨?_, fun n s hsteps ↦ ⟨?_, ?_⟩, ?_⟩⟩
  · simp only [beq_iff_eq]
    exact eq_equivalence
  · rw [beq_iff_eq, agree_iff]
  · have hle := hsteps.add_unseen_le
    have hstart : (Comparing.start a b).unseen = a.nodes.length := by
      simp [Comparing.start, Comparing.unseen]
    omega
  · rw [Comparing.no_step_iff]
    constructor
    · rintro ⟨answer, rfl⟩
      rw [hsteps.answer_eq]
    · rintro rfl
      exact ⟨_, rfl⟩
  · exact Comparing.exists_steps_allAgree [(a, b)]

end Condition

end SelectQuery
