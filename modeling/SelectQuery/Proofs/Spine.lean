import Mathlib.Data.List.Chain
import SelectQuery.Proofs.Rendering

/-!
# The left spine of a condition

A condition is written, and its outline drawn, by a walk down its left spine: the joins are passed
from the topmost one down, and what stands on their right is written on the way back. A `Spine` is
a place on such a walk. The walk forgets nothing (`Spine.tree_walk`), so what is written from the
place where it stops is what plain recursion over the tree writes (`render_eq_recursiveText`,
`outline_eq_recursiveOutline`), whatever operators are mixed on the spine, and also where an
operator disagrees with its token.
-/

namespace SelectQuery.Condition

/-- Whether the topmost node is a join. -/
def isJoin : Condition → Bool
  | boolean _ _ _ _ => true
  | comparison _ | negation _ _ => false

/-- A join that has been passed on the way to its left side. -/
structure Link where
  token : Token
  op : BooleanOperator
  right : Condition

/-- A place on the left spine of a condition: the joins passed, the nearest first, and the condition
at the foot of them. -/
structure Spine where
  links : List Link
  foot : Condition

namespace Spine

/-- The condition that the place belongs to. -/
def tree (s : Spine) : Condition :=
  s.links.foldl (fun c k ↦ boolean k.token k.op c k.right) s.foot

/-- The tree is the same one join further down. -/
theorem tree_cons (t : Token) (op : BooleanOperator) (l r : Condition) (links : List Link) :
    tree ⟨⟨t, op, r⟩ :: links, l⟩ = tree ⟨links, boolean t op l r⟩ := rfl

/-- Goes down the left spine as long as there are joins. At a join that has others above it the walk
stops if `stops` says so, given the operator of the nearest. -/
def walk (stops : BooleanOperator → Condition → Bool) (links : List Link) : Condition → Spine
  | boolean t op l r =>
    if links.head?.any fun k ↦ stops k.op (boolean t op l r) then ⟨links, boolean t op l r⟩
    else walk stops (⟨t, op, r⟩ :: links) l
  | c => ⟨links, c⟩

variable {stops : BooleanOperator → Condition → Bool}

/-- Nothing is lost on the way. -/
theorem tree_walk (links : List Link) (c : Condition) :
    (walk stops links c).tree = tree ⟨links, c⟩ := by
  induction c generalizing links with
  | comparison c => rfl
  | negation t e => rfl
  | boolean t op l r ihl =>
    rw [walk]
    split
    · rfl
    · rw [ihl, tree_cons]

/-- A walk that is not stopped ends at a comparison or a negation. -/
theorem isJoin_foot_walk (links : List Link) (c : Condition) :
    (walk (fun _ _ ↦ false) links c).foot.isJoin = false := by
  induction c generalizing links with
  | comparison c => rfl
  | negation t e => rfl
  | boolean t op l r ihl =>
    have hnever : (links.head?.any fun _ ↦ false) = false := by cases links <;> rfl
    rw [walk, hnever, if_neg Bool.false_ne_true]
    exact ihl _

end Spine

/-! ### Writing -/

/-- The text of a child of a join, given the child's own text. A negation stands in parentheses, and
so does a join that binds looser than its parent, or on the right one that binds equally. -/
def childText (parent : BooleanOperator) (side : Side) (child : Condition) (text : String) :
    String :=
  match child with
  | comparison _ => text
  | negation _ _ => "(" ++ text ++ ")"
  | boolean _ op _ _ =>
    if op.binding < parent.binding then "(" ++ text ++ ")"
    else if side = .right ∧ op.binding = parent.binding then "(" ++ text ++ ")"
    else text

/-- The text of a condition by recursion over the tree. -/
def recursiveText : Condition → String
  | comparison c => c.render
  | negation t e => t.text ++ " " ++ e.recursiveText
  | boolean t op l r =>
    childText op .left l l.recursiveText ++ " " ++ t.text ++ " " ++
      childText op .right r r.recursiveText

/-- Parentheses are needed where the text of a child has them. -/
theorem fence_needsParens (parent : BooleanOperator) (side : Side) (child : Condition)
    (text : String) :
    fence (child.needsParens parent side) text = childText parent side child text := by
  cases child with
  | comparison c => rfl
  | negation t e => rfl
  | boolean t op l r =>
    by_cases hlooser : op.binding < parent.binding
    · simp [needsParens, childText, fence, hlooser]
    · by_cases hequal : side = .right ∧ op.binding = parent.binding
      · simp [needsParens, childText, fence, hequal]
      · simp [needsParens, childText, fence, hlooser, hequal]

namespace Spine

/-- Where the walk stops that writes a condition: at a child that needs parentheses. -/
def ofWriting (c : Condition) : Spine :=
  walk (fun parent child ↦ child.needsParens parent .left) [] c

/-- Whether the foot needs parentheses on the left of the nearest join. -/
def footNeedsParens (s : Spine) : Bool :=
  s.links.head?.any fun k ↦ s.foot.needsParens k.op .left

/-- What is written of a place: its foot, and then, from the nearest join up, the word and the right
side of each. -/
def text (s : Spine) : String :=
  fence s.footNeedsParens s.foot.render ++
    .join (s.links.map fun k ↦
      " " ++ k.token.text ++ " " ++ fence (k.right.needsParens k.op .right) k.right.render)

/-- No join that has been passed needs parentheses on the left of the one above it. -/
def Flat (links : List Link) : Prop :=
  links.IsChain fun k above ↦
    ∀ l, (boolean k.token k.op l k.right).needsParens above.op .left = false

/-- The walk passes no join that needs parentheses. -/
theorem flat_walk {links : List Link} (h : Flat links) (c : Condition) :
    Flat (walk (fun parent child ↦ child.needsParens parent .left) links c).links := by
  induction c generalizing links with
  | comparison c => exact h
  | negation t e => exact h
  | boolean t op l r ihl =>
    rw [walk]
    split
    · exact h
    next hgoes =>
      apply ihl
      refine List.isChain_cons.mpr ⟨fun above habove l' ↦ ?_, h⟩
      rw [Option.mem_def.mp habove] at hgoes
      exact Bool.eq_false_iff.mpr hgoes

/-- What is written of a place is the text of its tree, as long as no join that has been passed
needs parentheses. -/
theorem render_tree {s : Spine} (h : Flat s.links) : s.tree.render = s.text := by
  obtain ⟨links, foot⟩ := s
  induction links generalizing foot with
  | nil => simp [tree, text, footNeedsParens, fence]
  | cons k links ih =>
    obtain ⟨hk, hlinks⟩ := List.isChain_cons.mp h
    have hopen : footNeedsParens ⟨links, boolean k.token k.op foot k.right⟩ = false := by
      cases links with
      | nil => rfl
      | cons above links => exact hk above rfl foot
    rw [tree_cons, ih _ hlinks, text, hopen, render_boolean]
    simp [text, footNeedsParens, fence, String.join_cons, String.append_assoc]

end Spine

/-- The text of a condition is the one that plain recursion gives, and so is what the walk down the
left spine writes from where it stops. -/
theorem render_eq_recursiveText (c : Condition) :
    c.render = c.recursiveText ∧ (Spine.ofWriting c).text = c.recursiveText := by
  have hrender : c.render = c.recursiveText := by
    induction c with
    | comparison c => simp [render, renderSpine, recursiveText, String.join_cons]
    | negation t e ih => rw [render_negation, recursiveText, ih]
    | boolean t op l r ihl ihr =>
      rw [render_boolean, recursiveText, fence_needsParens, fence_needsParens, ihl, ihr]
  have hwalk : (Spine.ofWriting c).text = c.render := by
    have hflat : Spine.Flat (Spine.ofWriting c).links := Spine.flat_walk .nil c
    rw [← Spine.render_tree hflat, Spine.ofWriting, Spine.tree_walk]
    rfl
  exact ⟨hrender, hwalk.trans hrender⟩

/-! ### Outlines -/

/-- The walk down the left spine puts the outline between what was opened and what is pending. -/
theorem outlineSpine_eq (c : Condition) (opened : String) (pending : List String) :
    c.outlineSpine opened pending = opened ++ c.outline ++ String.join pending := by
  induction c generalizing opened pending with
  | comparison c => simp [outline, outlineSpine, String.join_cons, String.append_assoc]
  | negation t e ih => simp [outline, outlineSpine, String.join_cons, String.append_assoc]
  | boolean t op l r ihl ihr =>
    simp only [outline, outlineSpine]
    rw [ihl, ihl]
    simp [String.join_cons, String.append_assoc]

/-- The outline of a comparison shows its text. -/
theorem outline_comparison (c : Comparison) :
    (comparison c).outline = "Compare(" ++ c.render ++ ")" := by
  simp [outline, outlineSpine, String.join_cons]

/-- The outline of a negation shows what is negated. -/
theorem outline_negation (t : Token) (e : Condition) :
    (negation t e).outline = "NOT(" ++ e.outline ++ ")" := by
  simp [outline, outlineSpine, String.join_cons]

/-- The outline of a boolean node shows its operator and then both sides. -/
theorem outline_boolean (t : Token) (op : BooleanOperator) (l r : Condition) :
    (boolean t op l r).outline = op.word ++ "(" ++ l.outline ++ ", " ++ r.outline ++ ")" := by
  have hspine : r.outlineSpine "" [] = r.outline := rfl
  rw [outline, outlineSpine, outlineSpine_eq, hspine]
  simp [String.join_cons, String.append_assoc]

/-- The outline of a condition by recursion over the tree. -/
def recursiveOutline : Condition → String
  | comparison c => "Compare(" ++ c.render ++ ")"
  | negation _ e => "NOT(" ++ e.recursiveOutline ++ ")"
  | boolean _ op l r => op.word ++ "(" ++ l.recursiveOutline ++ ", " ++ r.recursiveOutline ++ ")"

namespace Spine

/-- Where the walk stops that outlines a condition: no join holds it up. -/
def ofOutlining (c : Condition) : Spine := walk (fun _ _ ↦ false) [] c

/-- What is outlined of a place: an opener for each join from the topmost down, the foot, and then,
from the nearest join up, the right side of each and what closes it. Nothing is written of a foot
that is a join. -/
def outline (s : Spine) : String :=
  .join (s.links.reverse.map fun k ↦ k.op.word ++ "(") ++
    (match s.foot with
    | comparison c => "Compare(" ++ c.render ++ ")"
    | negation _ e => "NOT(" ++ e.outline ++ ")"
    | boolean _ _ _ _ => "") ++
    .join (s.links.map fun k ↦ ", " ++ k.right.outline ++ ")")

/-- The outline of a tree is that of any place in it, with the outline of the foot. -/
theorem outline_tree (links : List Link) (foot : Condition) :
    (tree ⟨links, foot⟩).outline =
      .join (links.reverse.map fun k ↦ k.op.word ++ "(") ++ foot.outline ++
        .join (links.map fun k ↦ ", " ++ k.right.outline ++ ")") := by
  induction links generalizing foot with
  | nil => simp [tree]
  | cons k links ih =>
    rw [tree_cons, ih, outline_boolean]
    simp [String.join_append, String.join_cons, String.append_assoc]

/-- What is outlined of a place where there is no join is the outline of its tree. -/
theorem outline_eq_of_isJoin_foot {s : Spine} (h : s.foot.isJoin = false) :
    s.outline = s.tree.outline := by
  obtain ⟨links, foot⟩ := s
  rw [outline_tree, outline]
  cases foot with
  | comparison c => rw [outline_comparison]
  | negation t e => rw [outline_negation]
  | boolean t op l r => cases h

end Spine

/-- The outline of a condition is the one that plain recursion gives, and so is what is outlined of
the place at which the walk down the left spine ends. No join is at that place. -/
theorem outline_eq_recursiveOutline (c : Condition) :
    c.outline = c.recursiveOutline ∧ (Spine.ofOutlining c).outline = c.recursiveOutline ∧
      (Spine.ofOutlining c).foot.isJoin = false := by
  have houtline : c.outline = c.recursiveOutline := by
    induction c with
    | comparison c => exact outline_comparison c
    | negation t e ih => rw [outline_negation, recursiveOutline, ih]
    | boolean t op l r ihl ihr => rw [outline_boolean, recursiveOutline, ihl, ihr]
  have hfoot : (Spine.ofOutlining c).foot.isJoin = false := Spine.isJoin_foot_walk [] c
  have hwalk : (Spine.ofOutlining c).outline = c.outline := by
    rw [Spine.outline_eq_of_isJoin_foot hfoot, Spine.ofOutlining, Spine.tree_walk]
    rfl
  exact ⟨houtline, hwalk.trans houtline, hfoot⟩

end SelectQuery.Condition
