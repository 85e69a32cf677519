import SelectQuery.Proofs.Layout

/-!
# Spellings

Which tokens spell a statement: those that it holds, in order, with the words and marks that it
does not hold in their places. `Parser.State.run?_start_eq_complete_iff` says that a run over a
list of tokens makes a statement exactly when the tokens spell it and the limit reaches as deep as
they nest.
-/

namespace SelectQuery

/-- The tokens of a column, with or without an alias. -/
inductive Column.Spelled : Column → List Token → Prop where
  | name {n : Identifier} : n.token.kind = .identifier → Column.Spelled ⟨n, none⟩ [n.token]
  | aliased {n a : Identifier} {t : Token} : n.token.kind = .identifier → t.kind = .asKw →
      a.token.kind = .identifier → Column.Spelled ⟨n, some a⟩ [n.token, t, a.token]

namespace Projection

/-- The tokens of a list of columns with commas between them. The columns come newest first, as
parser states keep them. -/
inductive ColumnsSpelled : List Column → List Token → Prop where
  | single {c : Column} {tokens : List Token} : c.Spelled tokens → ColumnsSpelled [c] tokens
  | more {c : Column} {columns : List Column} {t : Token} {tokens tokens' : List Token} :
      ColumnsSpelled columns tokens → t.kind = .comma → c.Spelled tokens' →
      ColumnsSpelled (c :: columns) (tokens ++ t :: tokens')

/-- The tokens of a projection. -/
def Spelled : Projection → List Token → Prop
  | wildcard star, tokens => star.kind = .star ∧ tokens = [star]
  | columns list, tokens => ColumnsSpelled list.reverse tokens

end Projection

/-- The tokens of what precedes a condition. -/
inductive Header.Spelled : Header → List Token → Prop where
  | intro {h : Header} {t : Token} {tokens : List Token} : h.token.kind = .selectKw →
      h.projection.Spelled tokens → t.kind = .fromKw → h.table.token.kind = .identifier →
      Header.Spelled h (h.token :: (tokens ++ [t, h.table.token]))

/-- The tokens of a whole statement, the end of the source apart, and how many expressions are
open at once where most are. -/
inductive Statement.Spelled : Statement → Nat → List Token → Prop where
  | unconditional {h : Header} {t : Token} {tokens : List Token} : h.Spelled tokens →
      t.kind = .semicolon → Statement.Spelled (h.statement none) 0 (tokens ++ [t])
  | conditional {h : Header} {l : Layout} {w t : Token} {tokens : List Token} : h.Spelled tokens →
      w.kind = .whereKw → l.Proper → t.kind = .semicolon →
      Statement.Spelled (h.statement (some l.tree)) (1 + l.depth)
        (tokens ++ [w] ++ l.tokens ++ [t])

/-- What spells a statement begins with `SELECT` and ends with a semicolon. -/
theorem Statement.Spelled.exists_ends {s : Statement} {n : Nat} {tokens : List Token}
    (h : s.Spelled n tokens) : ∃ t middle e, tokens = t :: (middle ++ [e]) ∧ t.kind = .selectKw ∧
      e.kind = .semicolon := by
  cases h with
  | unconditional hh he =>
    cases hh with
    | intro hselect => exact ⟨_, _, _, rfl, hselect, he⟩
  | conditional hh hw hl he =>
    cases hh with
    | intro hselect => exact ⟨_, _, _, rfl, hselect, he⟩

/-- So no string is left open in it. -/
theorem Statement.Spelled.not_open {s : Statement} {n : Nat} {t : Token} {front behind : List Token}
    (h : s.Spelled n (front ++ t :: behind)) : ¬(t.kind = .string ∧ behind = []) := by
  obtain ⟨first, middle, e, hends, -, he⟩ := h.exists_ends
  rintro ⟨hstring, rfl⟩
  rw [← List.cons_append] at hends
  obtain ⟨-, heq⟩ := List.append_inj' hends rfl
  obtain rfl : t = e := List.head_eq_of_cons_eq heq
  rw [he] at hstring
  cases hstring

namespace Parser.State

private theorem run?_column {c : Column} {tokens : List Token} (hc : c.Spelled tokens)
    (s : State) (token : Token) (columns : List Column) (limit : Nat)
    (hs : ∀ t : Token, t.kind = .identifier →
      s.step? limit t = some (columnName token columns ⟨t⟩)) :
    ∃ s', s.run? limit tokens = some s' ∧
      (∀ t : Token, t.kind = .comma → s'.step? limit t = some (column token (c :: columns))) ∧
      ∀ t : Token, t.kind = .fromKw →
        s'.step? limit t = some (table token (.columns (c :: columns).reverse)) := by
  cases hc with
  | @name n hn =>
    refine ⟨columnName token columns n, ?_, ?_, ?_⟩
    · rw [run?_cons, hs n.token hn, Option.bind_some, run?_nil]
    · intro t ht
      simp [step?, ht]
    · intro t ht
      simp [step?, ht]
  | @aliased n a t hn ht ha =>
    refine ⟨columnEnd token (⟨n, some a⟩ :: columns), ?_, ?_, ?_⟩
    · rw [run?_cons, hs n.token hn, Option.bind_some]
      simp [step?, ht, ha]
    · intro t ht
      simp [step?, ht]
    · intro t ht
      simp [step?, ht]

private theorem run?_columns {columns : List Column} {tokens : List Token}
    (hc : Projection.ColumnsSpelled columns tokens) (limit : Nat) (token : Token) :
    ∃ s, (projection token).run? limit tokens = some s ∧
      (∀ t : Token, t.kind = .comma → s.step? limit t = some (column token columns)) ∧
      ∀ t : Token, t.kind = .fromKw →
        s.step? limit t = some (table token (.columns columns.reverse)) := by
  induction hc with
  | single hc => exact run?_column hc _ _ _ limit fun t ht ↦ by simp [step?, ht]
  | @more c columns t tokens tokens' _ ht hc ih =>
    obtain ⟨s, hs, hcomma, -⟩ := ih
    obtain ⟨s', hs', h'⟩ := run?_column hc (column token columns) token columns limit
      fun t ht ↦ by simp [step?, ht]
    refine ⟨s', ?_, h'⟩
    rw [run?_append, hs, Option.bind_some, run?_cons, hcomma t ht, Option.bind_some, hs']

private theorem run?_header {h : Header} {tokens : List Token} (hh : h.Spelled tokens)
    (limit : Nat) : start.run? limit tokens = some (tableName h) := by
  obtain ⟨htoken, hp, ht, htable⟩ := hh
  rename_i t tokens
  have hfrom : (projection h.token).run? limit (tokens ++ [t]) =
      some (table h.token h.projection) := by
    cases hproj : h.projection with
    | wildcard star =>
      rw [hproj] at hp
      obtain ⟨hstar, rfl⟩ := hp
      simp [step?, hstar, ht]
    | columns list =>
      rw [hproj] at hp
      obtain ⟨s, hs, -, hfrom⟩ := run?_columns hp limit h.token
      rw [run?_append, hs]
      simp [hfrom t ht]
  have hl : h.token :: (tokens ++ [t, h.table.token]) =
      h.token :: (tokens ++ [t] ++ [h.table.token]) := by simp
  have hstep : start.step? limit h.token = some (projection h.token) := by simp [step?, htoken]
  rw [hl, run?_cons, hstep, Option.bind_some, run?_append, hfrom]
  simp [step?, htable]

/-- A run over the tokens of a statement makes that statement if the limit reaches as deep as they
nest, and otherwise does not get through. -/
theorem run?_of_spelled {statement : Statement} {n : Nat} {tokens : List Token}
    (h : statement.Spelled n tokens) (limit : Nat) :
    start.run? limit tokens = if n ≤ limit then some (complete statement) else none := by
  cases h with
  | @unconditional h t tokens hh ht =>
    rw [run?_append, run?_header hh]
    simp [step?, ht]
  | @conditional h l w t tokens hh hw hl ht =>
    have hclose : Frame.close (l.leave []).1 (l.leave []).2 = ([], l.tree) := l.close_leave []
    have hrun : (expression h []).run? limit l.tokens =
        if 1 + l.depth ≤ limit then some (conditionEnd h (l.leave []).1 (l.leave []).2)
        else none := by
      have hdepth : Frame.nesting [] + l.depth = 1 + l.depth := rfl
      rw [← hdepth]
      have hf : Frame.binding [] < l.binding := l.binding_pos
      exact run?_expression_tokens fun hn ↦ run?_tokens hl hf hn h
    have hstep : (tableName h).step? limit w = some (expression h []) := by simp [step?, hw]
    rw [List.append_assoc, List.append_assoc, run?_append, run?_header hh, Option.bind_some,
      List.singleton_append, run?_cons, hstep, Option.bind_some, run?_append, hrun]
    by_cases hd : 1 + l.depth ≤ limit
    · simp [if_pos hd, step?, endCondition?, ht, hclose]
    · simp [if_neg hd]

end Parser.State

end SelectQuery
