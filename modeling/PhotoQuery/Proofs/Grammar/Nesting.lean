import PhotoQuery.Proofs.Grammar.Derivation

/-!
# Grammar — how deep trees get

A path leads from the root of a tree to one of its leaves.  `Expr.Path e m k` counts two things on
a path: the negations, calls and connectives (`m`), and those among them that are connectives which
the path leaves on their left side (`k`).

The cost of a derivation bounds the first number only up to the second one (`Derives.path_le`).  An
operand of a chain costs one more for each connective *before* it, but stands in the tree under each
connective *behind* it: a chain is grouped to the left, so its first operand stands deepest and
costs nothing more than by itself.  On all paths together, the square of the cost is what bounds the
number of nodes (`Category.bound`), since what stands in a first operand can be a chain again.
-/

namespace PhotoQuery

/-- Some path from the root of the tree to a leaf passes `m` negations, calls and connectives, the
leaf included, and leaves `k` connectives on their left side. -/
inductive Expr.Path : Expr → Nat → Nat → Prop where
  | constant (value : Constant) (position : Nat) : Path (.constant value position) 0 0
  | property (path : List Text) (position : Nat) : Path (.property path position) 0 0
  | foreign (tag : Text) : Path (.foreign tag) 0 0
  | callEmpty (name : Text) (position : Nat) : Path (.call name position []) 1 0
  | arg {a : Expr} {args : List Expr} {m k : Nat} (name : Text) (position : Nat) (ha : a ∈ args)
      (h : Path a m k) : Path (.call name position args) (m + 1) k
  | negated {e : Expr} {m k : Nat} (position : Nat) (h : Path e m k) :
      Path (.negation position e) (m + 1) k
  | compared {l r : Expr} {m k : Nat} (op : Comparison) (position : Nat) (h : Path l m k) :
      Path (.comparison op position l r) m k
  | comparedTo {l r : Expr} {m k : Nat} (op : Comparison) (position : Nat) (h : Path r m k) :
      Path (.comparison op position l r) m k
  | left {l r : Expr} {m k : Nat} (connective : Connective) (position : Nat) (h : Path l m k) :
      Path (.logical connective position l r) (m + 1) (k + 1)
  | right {l r : Expr} {m k : Nat} (connective : Connective) (position : Nat) (h : Path r m k) :
      Path (.logical connective position l r) (m + 1) k

namespace Grammar

/-! ### Costs of operands -/

/-- A chain costs what each operand does, and one for each connective before it. -/
theorem add_le_chainCost (before : List Nat) (c : Nat) (after : List Nat) :
    before.length + c ≤ chainCost (before ++ c :: after) := by
  refine maxCost_le_iff.mp (Nat.le_refl (chainCost (before ++ c :: after))) _ ?_
  rw [List.mapIdx_append, List.mapIdx_cons]
  simp

/-- The cost of an operand, which has the connectives of the items before it and its own before
it. -/
theorem Item.add_le_chainCost (n : Nat) (before : List Item) (i : Item) (after : List Item) :
    before.length + 1 + i.cost ≤ chainCost (n :: (before ++ i :: after).map Item.cost) := by
  have le := Grammar.add_le_chainCost (n :: before.map Item.cost) i.cost (after.map Item.cost)
  rw [List.length_cons, List.length_map, List.cons_append] at le
  rwa [List.map_append, List.map_cons]

/-- A chain costs one for each of its connectives. -/
theorem Item.length_le_chainCost (n : Nat) (items : List Item) :
    items.length ≤ chainCost (n :: items.map Item.cost) := by
  rcases List.eq_nil_or_concat items with rfl | ⟨before, i, rfl⟩
  · exact Nat.zero_le _
  · have le := Item.add_le_chainCost n before i []
    rw [List.concat_eq_append, List.length_append, List.length_singleton]
    omega

/-! ### Paths through chains -/

/-- A path through a chain leaves all of its connectives on their left side, for the first operand;
or it leaves those behind some other operand so, and goes right to that operand. -/
theorem Item.path_joined {connective : Connective} {items : List Item} {first : Expr} {m k : Nat}
    (h : (Item.joined connective first items).Path m k) :
    (∃ m' k', first.Path m' k' ∧ m = m' + items.length ∧ k = k' + items.length) ∨
      ∃ before i after m' k', items = before ++ i :: after ∧ i.tree.Path m' k' ∧
        m = m' + 1 + after.length ∧ k = k' + after.length := by
  induction items generalizing first with
  | nil => exact .inl ⟨m, k, h, rfl, rfl⟩
  | cons i items ih =>
    rcases ih h with ⟨m', k', path, rfl, rfl⟩ | ⟨before, j, after, m', k', rfl, path, rfl, rfl⟩
    · cases path with
      | @left _ _ m k _ _ path =>
        refine .inl ⟨m, k, path, ?_, ?_⟩
        · rw [List.length_cons, Nat.add_assoc, Nat.add_comm 1]
        · rw [List.length_cons, Nat.add_assoc, Nat.add_comm 1]
      | right _ _ path => exact .inr ⟨[], i, items, _, _, rfl, path, rfl, rfl⟩
    · exact .inr ⟨i :: before, j, after, m', k', rfl, path, rfl, rfl⟩

/-! ### Paths through derived trees -/

/-- The most counted nodes that a path can pass in a tree of the category, by the cost of the
tree. -/
def Category.bound : Category → Nat → Nat
  | .primary, n | .comparison, n | .unary, n => n * n
  | .conjunction, n => n * n + n
  | .disjunction, n => n * n + n + n

theorem Category.bound_mono (c : Category) {n n' : Nat} (h : n ≤ n') : c.bound n ≤ c.bound n' := by
  have square : n * n ≤ n' * n' := Nat.mul_le_mul h h
  cases c <;> simp only [bound] <;> omega

/-- A chain may pass as many more nodes as it costs. -/
theorem Category.bound_chain (c : Connective) (n : Nat) :
    (Category.chain c).bound n = (Category.operand c).bound n + n := by
  cases c <;> rfl

/-- What is put in parentheses, or is an argument, has room for one more node. -/
theorem Category.bound_primary_succ (n : Nat) :
    Category.primary.bound (n + 1) = Category.disjunction.bound n + 1 := by
  simp only [bound, Nat.add_mul, Nat.mul_add]
  omega

/-- What is negated has room for one more node. -/
theorem Category.bound_unary_succ (n : Nat) :
    Category.unary.bound n + 1 ≤ Category.unary.bound (n + 1) := by
  simp only [bound, Nat.add_mul, Nat.mul_add]
  omega

/-- A tree of the category and the cost `n` may have a path with these counts. -/
structure Category.Admits (c : Category) (n m k : Nat) : Prop where
  charged : m ≤ k + n
  all : m ≤ c.bound n

theorem Category.Admits.mono {c : Category} {n n' m k : Nat} (h : c.Admits n m k) (hn : n ≤ n') :
    c.Admits n' m k :=
  ⟨Nat.le_trans h.charged (Nat.add_le_add_left hn k), Nat.le_trans h.all (c.bound_mono hn)⟩

/-- An argument of a call, or what stands in parentheses, passes one node less than the whole
may. -/
theorem Category.Admits.argument {n m k : Nat} (h : Category.disjunction.Admits n m k) :
    Category.primary.Admits (n + 1) (m + 1) k := by
  refine ⟨Nat.succ_le_succ h.charged, ?_⟩
  rw [Category.bound_primary_succ]
  exact Nat.succ_le_succ h.all

/-- A negation passes one node more than its operand. -/
theorem Category.Admits.negated {n m k : Nat} (h : Category.unary.Admits n m k) :
    Category.unary.Admits (n + 1) (m + 1) k :=
  ⟨Nat.succ_le_succ h.charged, Nat.le_trans (Nat.succ_le_succ h.all) (Category.bound_unary_succ n)⟩

/-- The paths of a chain, from those of its operands. -/
theorem Category.Admits.chain {c : Connective} {n : Nat} {first : Expr} {items : List Item}
    (hf : ∀ {m k}, first.Path m k → (Category.operand c).Admits n m k)
    (hi : ∀ i ∈ items, ∀ {m k}, i.tree.Path m k → (Category.operand c).Admits i.cost m k)
    {m k : Nat} (h : (Item.joined c first items).Path m k) :
    (Category.chain c).Admits (chainCost (n :: items.map Item.cost)) m k := by
  rcases Item.path_joined h with ⟨m', k', path, rfl, rfl⟩ |
    ⟨before, i, after, m', k', rfl, path, rfl, rfl⟩
  · -- in the first operand, below all of the connectives
    have cost := le_chainCost n (items.map Item.cost)
    have length := Item.length_le_chainCost n items
    have admits := (hf path).mono cost
    refine ⟨?_, ?_⟩
    · have := admits.charged
      omega
    · rw [Category.bound_chain]
      exact Nat.add_le_add admits.all length
  · -- in another one, below its own connective and those behind it
    have cost := Item.add_le_chainCost n before i after
    have length := Item.length_le_chainCost n (before ++ i :: after)
    rw [List.length_append, List.length_cons] at length
    have admits := (hi i (by simp) path).mono
      (Nat.le_trans (Nat.le_add_left i.cost (before.length + 1)) cost)
    have charged := (hi i (by simp) path).charged
    refine ⟨?_, ?_⟩
    · omega
    · rw [Category.bound_chain]
      have := admits.all
      omega

/-- **The cost bounds the paths** of a derived tree. -/
theorem Derives.path_le {c : Category} {ts : List Token} {e : Expr} {n : Nat}
    (h : Derives c ts e n) {m k : Nat} (hp : e.Path m k) : c.Admits n m k := by
  induction h generalizing m k with
  | literal => cases hp; exact ⟨Nat.zero_le _, Nat.zero_le _⟩
  | path => cases hp; exact ⟨Nat.zero_le _, Nat.zero_le _⟩
  | group _ _ _ ih =>
    have admits := (ih hp).argument
    exact ⟨Nat.le_of_succ_le admits.charged, Nat.le_of_succ_le admits.all⟩
  | callEmpty =>
    cases hp with
    | callEmpty => exact ⟨Nat.le_refl 1, Nat.le_refl 1⟩
    | arg _ _ ha => cases ha
  | @call _ _ _ _ _ n more _ _ _ _ _ _ ihf iho =>
    -- a path goes on through one argument, and the call pays for the dearest
    have cost : ∀ c ∈ n :: more.map Item.cost, c ≤ maxCost (n :: more.map Item.cost) :=
      maxCost_le_iff.mp (Nat.le_refl _)
    rw [List.forall_mem_cons] at cost
    cases hp with
    | arg _ _ ha path =>
      rcases List.mem_cons.mp ha with rfl | ha
      · exact ((ihf path).mono cost.1).argument
      · obtain ⟨i, hi, rfl⟩ := List.mem_map.mp ha
        exact ((iho i hi path).mono (cost.2 i.cost (List.mem_map_of_mem hi))).argument
  | side _ ih | plain _ ih => exact ⟨(ih hp).charged, (ih hp).all⟩
  | @comparison _ _ _ _ _ _ n₁ n₂ _ _ _ ihl ihr =>
    cases hp with
    | compared _ _ path =>
      have admits := (ihl path).mono (Nat.le_max_left n₁ n₂)
      exact ⟨admits.charged, admits.all⟩
    | comparedTo _ _ path =>
      have admits := (ihr path).mono (Nat.le_max_right n₁ n₂)
      exact ⟨admits.charged, admits.all⟩
  | negation _ _ ih =>
    cases hp with
    | negated _ path => exact (ih path).negated
  | chain _ _ _ ihf iho => exact .chain ihf (fun i hi => iho i hi) hp

end Grammar

end PhotoQuery
