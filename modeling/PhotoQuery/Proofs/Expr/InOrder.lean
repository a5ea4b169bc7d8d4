import PhotoQuery.Proofs.Expr.Typing

/-!
# Expr — the nodes of a tree in order

A tree is written from left to right: an operator comes behind its left operand and in front of its
right one, `not` comes in front of its operand, and the name of a call in front of its arguments.
`Expr.inOrder` lists the nodes as they are written, and leaves out none (`Expr.Within.mem_inOrder`).
-/

namespace PhotoQuery.Expr

mutual

/-- The nodes of the tree, from left to right. -/
def inOrder : Expr → List Expr
  | .logical connective position left right =>
    inOrder left ++ .logical connective position left right :: inOrder right
  | .comparison operator position left right =>
    inOrder left ++ .comparison operator position left right :: inOrder right
  | .negation position operand => .negation position operand :: inOrder operand
  | .call name position args => .call name position args :: inOrderAll args
  | .property path position => [.property path position]
  | .constant value position => [.constant value position]
  | .foreign tag => [.foreign tag]

/-- The nodes of the trees, from left to right. -/
def inOrderAll : List Expr → List Expr
  | [] => []
  | e :: es => inOrder e ++ inOrderAll es

end

/-- The nodes of some trees are those of each, one after the other. -/
theorem inOrderAll_eq_flatMap (es : List Expr) : inOrderAll es = es.flatMap inOrder := by
  induction es with
  | nil => rfl
  | cons e es ih => rw [inOrderAll, ih, List.flatMap_cons]

theorem self_mem_inOrder (e : Expr) : e ∈ e.inOrder := by
  cases e <;> simp [inOrder]

/-- The nodes of a child are among those of its parent. -/
theorem Child.inOrder_subset {m e : Expr} (h : Child m e) : m.inOrder ⊆ e.inOrder := by
  intro n hn
  cases h with
  | left | right | compared | comparedTo | negated => simp [inOrder, hn]
  | arg name position he =>
    rw [inOrder, inOrderAll_eq_flatMap]
    exact List.mem_cons_of_mem _ (List.mem_flatMap.mpr ⟨m, he, hn⟩)

/-- What stands in a tree is listed. -/
theorem Within.mem_inOrder {n e : Expr} (h : Within n e) : n ∈ e.inOrder := by
  induction h with
  | refl => exact self_mem_inOrder n
  | step _ hc ih => exact hc.inOrder_subset ih

end PhotoQuery.Expr
