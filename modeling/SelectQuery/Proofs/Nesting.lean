import SelectQuery.Proofs.Position

/-!
# Nesting

How deep the tokens of a source nest: `Grammar.nesting` reads it off their kinds alone. A run that
keeps a limit gets through exactly when the run without one does and the kinds nest no deeper than
the limit (`Parser.Position.runWithin?_eq_ended_iff`). The parser checks its limit only where an
expression begins; that is enough, since only there more is open than before.
-/

namespace SelectQuery

namespace Grammar

/-- What is open behind one more token of a condition. A `NOT` stays open until the parenthesis
around it closes, or the condition ends. -/
def openAfter (opens : List Opener) : TokenKind → List Opener
  | .leftParen => .paren :: opens
  | .notKw => .negation :: opens
  | .rightParen => (Opener.endNegations opens).tail
  | .semicolon => []
  | _ => opens

/-- How many parentheses and negations are open where most are, from a place on at which `opens`
are open. -/
def deepest (opens : List Opener) : List TokenKind → Nat
  | [] => opens.length
  | k :: kinds => max opens.length (deepest (openAfter opens k) kinds)

/-- How many expressions are open where most are: that of the clause and one for each parenthesis
and negation. Without a `WHERE` there are none. -/
def nesting (kinds : List TokenKind) : Nat :=
  match kinds.dropWhile (· ≠ .whereKw) with
  | [] => 0
  | _ :: condition => 1 + deepest [] condition

/-- What stands before the condition does not nest. -/
theorem nesting_cons_of_ne {k : TokenKind} (hk : k ≠ .whereKw) (kinds : List TokenKind) :
    nesting (k :: kinds) = nesting kinds := by
  simp [nesting, hk]

/-- Somewhere at least as much is open as at the beginning. -/
theorem length_le_deepest (opens : List Opener) (kinds : List TokenKind) :
    opens.length ≤ deepest opens kinds := by
  cases kinds with
  | nil => exact Nat.le_refl _
  | cons k kinds => exact Nat.le_max_left _ _

end Grammar

namespace Parser.Position

open Grammar

/-- The position after one more token, if a limit on nesting is kept. -/
def stepWithin? (limit : Nat) (p : Position) (k : TokenKind) : Option Position :=
  if p.keeps limit then p.step? k else none

/-- The position after tokens of the given kinds, if a limit on nesting is kept throughout. -/
def runWithin? (limit : Nat) (p : Position) (kinds : List TokenKind) : Option Position :=
  kinds.foldlM (stepWithin? limit) p

/-- Without a token a limited run stays where it is. -/
@[simp] theorem runWithin?_nil (limit : Nat) (p : Position) :
    p.runWithin? limit [] = some p := rfl

/-- A limited run takes the first token, if it keeps to the limit, and goes on from there. -/
@[simp] theorem runWithin?_cons (limit : Nat) (p : Position) (k : TokenKind)
    (kinds : List TokenKind) :
    p.runWithin? limit (k :: kinds) =
      (p.stepWithin? limit k).bind fun q ↦ q.runWithin? limit kinds := rfl

/-- What a limited run gets through, an unlimited run does as well. -/
theorem run?_of_runWithin? {limit : Nat} {p q : Position} {kinds : List TokenKind}
    (h : p.runWithin? limit kinds = some q) : p.run? kinds = some q := by
  induction kinds generalizing p with
  | nil => exact h
  | cons k kinds ih =>
    obtain ⟨p', hp, h'⟩ := Option.bind_eq_some_iff.mp h
    unfold stepWithin? at hp
    split at hp
    next => rw [run?_cons, hp, Option.bind_some, ih h']
    next => cases hp

/-- Inside a condition a token opens or closes what its kind says, or ends the condition. Only the
beginning of an expression opens more. -/
theorem opens?_step? {p q : Position} {opens : List Opener} {k : TokenKind}
    (hp : p.opens? = some opens) (h : p.step? k = some q) :
    (k = .semicolon ∧ q = complete) ∨
      (q.opens? = some (openAfter opens k) ∧
        (q = expression (openAfter opens k) ∨ (openAfter opens k).length ≤ opens.length)) := by
  have hbegin (h : beginCondition? opens k = some q) : q.opens? = some (openAfter opens k) ∧
      (q = expression (openAfter opens k) ∨ (openAfter opens k).length ≤ opens.length) := by
    unfold beginCondition? at h
    split at h <;> cases h <;> simp [openAfter, opens?]
  cases p with
  | expression opens' =>
    obtain rfl : opens' = opens := by simpa [opens?] using hp
    exact .inr (hbegin h)
  | condition opens' =>
    obtain rfl : opens' = opens := by simpa [opens?] using hp
    exact .inr (hbegin h)
  | operator opens' =>
    obtain rfl : opens' = opens := by simpa [opens?] using hp
    refine .inr ?_
    cases k <;> simp [step?, ComparisonOperator.ofKind?] at h <;> subst h <;>
      simp [openAfter, opens?]
  | operand opens' =>
    obtain rfl : opens' = opens := by simpa [opens?] using hp
    refine .inr ?_
    cases k <;> simp [step?] at h <;> subst h <;> simp [openAfter, opens?]
  | conditionEnd opens' =>
    obtain rfl : opens' = opens := by simpa [opens?] using hp
    have hle := Opener.length_endNegations_le opens'
    simp only [step?, endCondition?] at h
    split at h
    next =>
      cases h
      simp [openAfter, opens?]
    next =>
      cases h
      simp [openAfter, opens?]
    next =>
      split at h
      next ho =>
        cases h
        rw [ho, List.length_cons] at hle
        refine .inr ⟨by rw [openAfter, ho]; rfl, .inr ?_⟩
        rw [openAfter, ho, List.tail_cons]
        omega
      next => cases h
    next =>
      split at h
      next => cases h
      next =>
        cases h
        exact .inl ⟨rfl, rfl⟩
    next => cases h
  | _ => simp [opens?] at hp

/-- Before the condition a token leads into it or stays outside. -/
theorem opens?_step?_outside {p q : Position} {k : TokenKind} (hp : p.opens? = none)
    (h : p.step? k = some q) :
    (k = .whereKw ∧ q = expression []) ∨ (k ≠ .whereKw ∧ q.opens? = none) := by
  cases p <;> cases k <;> simp [opens?, step?] at hp h <;> simp [← h, opens?]

private theorem runWithin?_complete (limit : Nat) {kinds : List TokenKind}
    (h : complete.run? kinds = some ended) :
    kinds = [.eof] ∧ complete.runWithin? limit kinds = some ended := by
  cases kinds with
  | nil => cases h
  | cons k kinds =>
    obtain ⟨q, hq, hrest⟩ := Option.bind_eq_some_iff.mp h
    obtain ⟨rfl, rfl⟩ : k = .eof ∧ q = ended := by cases k <;> simp_all [step?]
    cases kinds with
    | nil => exact ⟨rfl, rfl⟩
    | cons k' kinds => cases hrest

private theorem runWithin?_inside {limit : Nat} {p : Position} {opens : List Opener}
    (hp : p.opens? = some opens) (hlimit : p = expression opens ∨ 1 + opens.length ≤ limit)
    {kinds : List TokenKind} (h : p.run? kinds = some ended) :
    p.runWithin? limit kinds = if 1 + deepest opens kinds ≤ limit then some ended else none := by
  induction kinds generalizing p opens with
  | nil =>
    obtain rfl : p = ended := Option.some.inj h
    cases hp
  | cons k kinds ih =>
    obtain ⟨q, hq, h⟩ := Option.bind_eq_some_iff.mp h
    by_cases hopens : 1 + opens.length ≤ limit
    · have hkeeps : p.keeps limit = true := by
        cases p <;> simp_all [opens?, keeps]
      have hstep : p.stepWithin? limit k = some q := by rw [stepWithin?, if_pos hkeeps, hq]
      rw [runWithin?_cons, hstep, Option.bind_some]
      rcases opens?_step? hp hq with ⟨rfl, rfl⟩ | ⟨hq', hle⟩
      · obtain ⟨rfl, hrun⟩ := runWithin?_complete limit h
        rw [hrun, if_pos]
        simpa [deepest, openAfter] using hopens
      · have hiff : 1 + deepest (openAfter opens k) kinds ≤ limit ↔
            1 + deepest opens (k :: kinds) ≤ limit := by
          rw [deepest]
          omega
        rw [ih hq' (hle.imp_right (by omega)) h]
        exact if_congr hiff rfl rfl
    · -- Only the beginning of an expression can be this deep, and there the limit is checked.
      obtain rfl : p = expression opens := by simpa [hopens] using hlimit
      have hdeep := length_le_deepest opens (k :: kinds)
      have hstep : (expression opens).stepWithin? limit k = none := by
        simp [stepWithin?, keeps, hopens]
      rw [runWithin?_cons, hstep, if_neg (by omega)]
      rfl

private theorem runWithin?_outside {limit : Nat} {p : Position} (hp : p.opens? = none)
    {kinds : List TokenKind} (h : p.run? kinds = some ended) :
    p.runWithin? limit kinds = if nesting kinds ≤ limit then some ended else none := by
  induction kinds generalizing p with
  | nil =>
    obtain rfl : p = ended := Option.some.inj h
    rfl
  | cons k kinds ih =>
    obtain ⟨q, hq, h⟩ := Option.bind_eq_some_iff.mp h
    have hkeeps : p.keeps limit = true := by
      cases p with
      | expression opens => cases hp
      | _ => rfl
    have hstep : p.stepWithin? limit k = some q := by rw [stepWithin?, if_pos hkeeps, hq]
    rw [runWithin?_cons, hstep, Option.bind_some]
    rcases opens?_step?_outside hp hq with ⟨rfl, rfl⟩ | ⟨hk, hq'⟩
    · exact runWithin?_inside rfl (.inl rfl) h
    · rw [nesting_cons_of_ne hk]
      exact ih hq' h

/-- A limited run comes to the end of the source exactly when the run without a limit does and the
kinds nest no deeper than the limit. -/
theorem runWithin?_eq_ended_iff {limit : Nat} {kinds : List TokenKind} :
    start.runWithin? limit kinds = some ended ↔
      start.run? kinds = some ended ∧ nesting kinds ≤ limit := by
  constructor
  · intro h
    have hrun := run?_of_runWithin? h
    rw [runWithin?_outside rfl hrun] at h
    refine ⟨hrun, ?_⟩
    by_contra hlimit
    rw [if_neg hlimit] at h
    cases h
  · rintro ⟨hrun, hlimit⟩
    rw [runWithin?_outside rfl hrun, if_pos hlimit]

end Parser.Position

namespace Parser.State

/-- Runs lead to the positions that limited runs over the kinds of the tokens lead to. -/
theorem map_position_run? (limit : Nat) (s : State) {tokens : List Token}
    (h : ∀ t ∈ tokens, t.kind ≠ .eof) :
    (s.run? limit tokens).map position = s.position.runWithin? limit (tokens.map Token.kind) := by
  induction tokens generalizing s with
  | nil => rfl
  | cons t tokens ih =>
    obtain ⟨ht, htokens⟩ := List.forall_mem_cons.mp h
    have hstep : s.position.stepWithin? limit t.kind = (s.step? limit t).map position :=
      (map_position_step? limit s ht).symm
    rw [List.map_cons, Position.runWithin?_cons, hstep, run?_cons]
    cases s.step? limit t with
    | none => rfl
    | some s' => exact ih s' htokens

end Parser.State

end SelectQuery
