import SelectQuery.Proofs.Marked
import SelectQuery.Proofs.Writing

/-!
# Parentheses in texts

The parentheses of a text that are not inside of strings, and which of them match
(`Lexer.MatchingPair`). In a text that is written from tokens they are the tokens that are
parentheses: such a text splits at one of them as its tokens do (`Token.exists_of_write_eq`), and
as many are open behind the one as behind the other (`Token.depthAfter?_write`).
-/

namespace SelectQuery

namespace Lexer

/-- The kind of parenthesis that a character is. -/
def paren? : Char → Option TokenKind
  | '(' => some .leftParen
  | ')' => some .rightParen
  | _ => none

/-- How many parentheses are open behind a text, if it does not end inside of a string and closes
none that is not open. -/
def depthAfter? : (quoted : Bool) → Nat → List Char → Option Nat
  | quoted, depth, [] => if quoted then none else some depth
  | true, depth, c :: rest => depthAfter? (c != '"') depth rest
  | false, depth, c :: rest =>
    match paren? c with
    | some kind => (kind.depthAfter? depth).bind fun depth ↦ depthAfter? false depth rest
    | none => depthAfter? (c == '"') depth rest

/-- A text split at two parentheses that match, neither of them inside of a string. -/
structure MatchingPair (text front inside behind : List Char) : Prop where
  split : text = front ++ '(' :: (inside ++ ')' :: behind)
  outside : (depthAfter? false 0 front).isSome
  closed : depthAfter? false 0 inside = some 0

/-- Characters that are neither parentheses nor quotes do not matter. -/
theorem depthAfter?_plain {text : List Char} (h : ∀ c ∈ text, paren? c = none ∧ c ≠ '"')
    (depth : Nat) (rest : List Char) :
    depthAfter? false depth (text ++ rest) = depthAfter? false depth rest := by
  induction text with
  | nil => rfl
  | cons c text ih =>
    obtain ⟨⟨hparen, hquote⟩, htext⟩ := List.forall_mem_cons.mp h
    rw [List.cons_append, depthAfter?, hparen, beq_false_of_ne hquote]
    exact ih htext

/-- A string goes on up to a quote. -/
theorem depthAfter?_quoted {body : List Char} (h : '"' ∉ body) (depth : Nat) (rest : List Char) :
    depthAfter? true depth (body ++ rest) = depthAfter? true depth rest := by
  induction body with
  | nil => rfl
  | cons c body ih =>
    have hne : (c != '"') = true := bne_iff_ne.mpr fun hc ↦ h (hc ▸ List.mem_cons_self ..)
    rw [List.cons_append, depthAfter?, hne]
    exact ih (mt (List.mem_cons_of_mem c) h)

private theorem plain_of_isWordPart {c : Char} (h : isWordPart c) : paren? c = none ∧ c ≠ '"' := by
  constructor
  · unfold paren?
    split
    next => cases h
    next => cases h
    next => rfl
  · rintro rfl
    cases h

/-- Nor is a blank. -/
theorem plain_of_isBlank {c : Char} (h : isBlank c) : paren? c = none ∧ c ≠ '"' := by
  rcases isBlank_iff.mp h with rfl | rfl | rfl | rfl <;> exact ⟨rfl, by decide⟩

end Lexer

private theorem TokenKind.depthAfter?_of_isWord {kind : TokenKind} (h : kind.isWord) (depth : Nat) :
    kind.depthAfter? depth = some depth := by
  cases kind <;> first | rfl | cases h

/-- What the parentheses and quotes in a lexeme are: there are none, it is a parenthesis, or it is a
string. -/
theorem TokenKind.Lexeme.shape {kind : TokenKind} {text : String} (h : kind.Lexeme text) :
    ((∀ c ∈ text.toList, Lexer.paren? c = none ∧ c ≠ '"') ∧
        ∀ depth, kind.depthAfter? depth = some depth) ∨
      (∃ c, text.toList = [c] ∧ Lexer.paren? c = some kind) ∨
      kind = .string ∧ ∃ body, '"' ∉ body ∧ text.toList = '"' :: body ++ ['"'] := by
  cases h with
  | @word c rest hc hrest =>
    refine .inl ⟨?_, TokenKind.depthAfter?_of_isWord (isWord_ofWord _)⟩
    rw [String.toList_ofList]
    exact List.forall_mem_cons.mpr ⟨Lexer.plain_of_isWordPart (Lexer.isWordPart_of_isWordStart hc),
      fun d hd ↦ Lexer.plain_of_isWordPart (hrest d hd)⟩
  | number hdigits =>
    refine .inl ⟨?_, fun _ ↦ rfl⟩
    rw [String.toList_ofList]
    exact fun d hd ↦ Lexer.plain_of_isWordPart (Lexer.isWordPart_of_isDigit (hdigits d hd))
  | string hbody => exact .inr (.inr ⟨rfl, _, hbody, String.toList_ofList⟩)
  | mark h =>
    unfold Lexer.mark? at h
    split at h <;> simp only [Option.some.injEq, Prod.mk.injEq, reduceCtorEq] at h
    all_goals
      obtain ⟨rfl, rfl, -⟩ := h
      first
        | exact .inl ⟨by simp [Lexer.paren?], fun _ ↦ rfl⟩
        | exact .inr (.inl ⟨_, rfl, rfl⟩)

namespace Lexer

/-- A lexeme leaves open as many parentheses as its kind says. -/
theorem depthAfter?_lexeme {kind : TokenKind} {text : String} (h : kind.Lexeme text)
    (depth : Nat) (rest : List Char) :
    depthAfter? false depth (text.toList ++ rest) =
      (kind.depthAfter? depth).bind fun depth ↦ depthAfter? false depth rest := by
  rcases h.shape with ⟨hplain, hdepth⟩ | ⟨c, htext, hc⟩ | ⟨rfl, body, hbody, htext⟩
  · rw [depthAfter?_plain hplain, hdepth]
    rfl
  · rw [htext, List.singleton_append, depthAfter?, hc]
  · rw [htext, List.cons_append, List.cons_append, List.append_assoc]
    exact depthAfter?_quoted hbody depth ('"' :: rest)

private theorem exists_of_plain {plain rest u x : List Char} {c : Char} {kind : TokenKind}
    (hc : paren? c = some kind) (hplain : ∀ c ∈ plain, paren? c = none)
    (h : plain ++ rest = u ++ c :: x) : ∃ u', u = plain ++ u' ∧ rest = u' ++ c :: x := by
  rcases List.append_eq_append_iff.mp h with ⟨u', hu, hrest⟩ | ⟨z, rfl, hrest⟩
  · exact ⟨u', hu, hrest⟩
  · cases z with
    | nil => exact ⟨[], by simp, hrest.symm⟩
    | cons d z =>
      obtain rfl : c = d := (List.cons.inj hrest).1
      rw [hplain c (by simp)] at hc
      cases hc

/-- A text that begins with a lexeme splits at a parenthesis that is the lexeme, or behind it. -/
theorem exists_of_lexeme {kind kind' : TokenKind} {text : String} (h : kind'.Lexeme text) {c : Char}
    (hc : paren? c = some kind) {rest u x : List Char} {depth total : Nat}
    (hu : depthAfter? false depth u = some total) (hsplit : text.toList ++ rest = u ++ c :: x) :
    (u = [] ∧ kind' = kind ∧ rest = x) ∨
      ∃ u', u = text.toList ++ u' ∧ rest = u' ++ c :: x := by
  rcases h.shape with ⟨hplain, -⟩ | ⟨d, htext, hd⟩ | ⟨-, body, hbody, htext⟩
  · exact .inr (exists_of_plain hc (fun c hc ↦ (hplain c hc).1) hsplit)
  · rw [htext] at hsplit ⊢
    cases u with
    | nil =>
      obtain ⟨rfl, hrest⟩ := List.cons.inj hsplit
      exact .inl ⟨rfl, Option.some.inj (hd.symm.trans hc), hrest⟩
    | cons e u =>
      obtain ⟨rfl, hrest⟩ := List.cons.inj hsplit
      exact .inr ⟨u, rfl, hrest⟩
  · -- In front of a parenthesis inside the string the string would not be closed.
    rw [htext] at hsplit ⊢
    rcases List.append_eq_append_iff.mp hsplit with ⟨u', hu', hrest⟩ | ⟨z, hz, hrest⟩
    · exact .inr ⟨u', hu', hrest⟩
    rcases List.eq_nil_or_concat z with rfl | ⟨z, last, rfl⟩
    · exact .inr ⟨[], by simpa using hz.symm, by simpa using hrest.symm⟩
    rw [List.concat_eq_append, ← List.append_assoc] at hz
    have hstring : '"' :: body = u ++ z := (List.append_inj' hz rfl).1
    cases u with
    | nil =>
      obtain rfl : '"' = c := by
        rw [List.nil_append] at hstring
        rw [← hstring] at hrest
        exact (List.cons.inj hrest).1.symm
      cases hc
    | cons e u =>
      obtain ⟨rfl, rfl⟩ := List.cons.inj hstring
      have hquoted := depthAfter?_quoted (mt (List.mem_append_left z) hbody) depth []
      rw [List.append_nil] at hquoted
      have hnone : depthAfter? false depth ('"' :: u) = none := hquoted
      rw [hnone] at hu
      cases hu

end Lexer

namespace Token

/-- What is written of tokens leaves open as many parentheses as the tokens do. -/
theorem depthAfter?_write {tokens : List Token} (h : ∀ t ∈ tokens, t.IsLexeme) (depth : Nat) :
    Lexer.depthAfter? false depth (write tokens) = depthAfter? depth tokens := by
  induction tokens generalizing depth with
  | nil => rfl
  | cons t tokens ih =>
    obtain ⟨ht, htokens⟩ := List.forall_mem_cons.mp h
    rw [write, Lexer.depthAfter?_lexeme ht, depthAfter?]
    congr
    funext depth
    rw [Lexer.depthAfter?_plain fun c hc ↦ Lexer.plain_of_isBlank (isBlank_of_mem_gap c hc)]
    exact ih htokens depth

/-- A text that is written from tokens splits at a parenthesis outside of strings as the tokens
do. -/
theorem exists_of_write_eq {tokens : List Token} (h : ∀ t ∈ tokens, t.IsLexeme) {c : Char}
    {kind : TokenKind} (hc : Lexer.paren? c = some kind) {u x : List Char} {depth total : Nat}
    (hu : Lexer.depthAfter? false depth u = some total) (hsplit : write tokens = u ++ c :: x) :
    ∃ front t back, tokens = front ++ t :: back ∧ t.kind = kind ∧
      write (front ++ [t]) = u ++ t.text.toList ∧ x = t.gap back ++ write back := by
  induction tokens generalizing u depth with
  | nil => simp [write] at hsplit
  | cons t tokens ih =>
    obtain ⟨ht, htokens⟩ := List.forall_mem_cons.mp h
    rcases Lexer.exists_of_lexeme ht hc hu hsplit with
      ⟨rfl, hkind, hx⟩ | ⟨u, rfl, hrest⟩
    · exact ⟨[], t, tokens, rfl, hkind, by simp [write, gap], hx.symm⟩
    · have hblank : ∀ d ∈ t.gap tokens, Lexer.paren? d = none ∧ d ≠ '"' := fun d hd ↦
        Lexer.plain_of_isBlank (isBlank_of_mem_gap d hd)
      obtain ⟨u, rfl, hwrite⟩ := Lexer.exists_of_plain hc (fun d hd ↦ (hblank d hd).1) hrest
      rw [Lexer.depthAfter?_lexeme ht] at hu
      obtain ⟨depth', -, hu⟩ := Option.bind_eq_some_iff.mp hu
      rw [Lexer.depthAfter?_plain hblank] at hu
      obtain ⟨front, t', back, rfl, hkind, hfront, hx⟩ := ih htokens hu hwrite
      have hgap : t.gap (front ++ t' :: back) = t.gap (front ++ [t']) := by cases front <;> rfl
      refine ⟨t :: front, t', back, rfl, hkind, ?_, hx⟩
      rw [List.cons_append, write, hfront, hgap]
      simp only [List.append_assoc]

end Token

end SelectQuery
