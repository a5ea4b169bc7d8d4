import Mathlib.Data.List.Forall2
import PhotoQuery.Proofs.Expr.Checking
import PhotoQuery.Proofs.Expr.InOrder
import PhotoQuery.Proofs.Grammar.Derivation

/-!
# Grammar — where nodes stand

Every node of a derived tree is marked by one of the tokens that derive it: its operator, its name,
its first segment or its literal.  From left to right the nodes are marked by tokens from left to
right (`Derives.marked`); what stands between these, the parentheses, commas, dots and other
segments, leaves no node.  A sort clause stands at its `sort`, behind the bar and in front of the
path (`SortClause.ReadOff`).

So no node is foreign to the language, each stands at the position of a token (`Derives.standsOn`),
and a derived tree that cannot be compiled is refused at the position of a token
(`Expr.StandsOn.predicate_error`).
-/

namespace PhotoQuery

namespace Grammar

/-- The node is read off the token, and stands where it does. -/
inductive Marks : Token → Expr → Prop where
  | logical {t : Token} {connective : Connective} {left right : Expr}
      (kind : t.kind = .keyword connective.keyword) :
      Marks t (.logical connective t.position left right)
  | comparison {t : Token} {operator : Comparison} {left right : Expr}
      (kind : t.kind = .comparison operator) : Marks t (.comparison operator t.position left right)
  | negation {t : Token} {operand : Expr} (kind : t.kind = .keyword .not) :
      Marks t (.negation t.position operand)
  | call {t : Token} {args : List Expr} (kind : t.kind = .identifier) :
      Marks t (.call t.value t.position args)
  | property {t : Token} {names : List Text} (kind : t.kind = .identifier) :
      Marks t (.property (t.value :: names) t.position)
  | constant {t : Token} {value : Constant} (literal : Literal t value) :
      Marks t (.constant value t.position)

/-- The nodes, one after the other, are read off some of the tokens, one after the other. -/
def Marked (ts : List Token) (nodes : List Expr) : Prop :=
  ∃ marks, marks.Sublist ts ∧ List.Forall₂ Marks marks nodes

theorem Marks.position_eq {t : Token} {n : Expr} (h : Marks t n) : t.position = n.position := by
  cases h <;> rfl

/-- No token marks a foreign node. -/
theorem Marks.ne_foreign {t : Token} {n : Expr} (h : Marks t n) (tag : Text) :
    n ≠ .foreign tag := by
  cases h <;> simp

namespace Marked

variable {ts ts' : List Token} {nodes nodes' : List Expr} {t : Token} {n : Expr}

theorem mono (h : Marked ts nodes) (hts : ts.Sublist ts') : Marked ts' nodes := by
  obtain ⟨marks, sub, marked⟩ := h
  exact ⟨marks, sub.trans hts, marked⟩

theorem nil (ts : List Token) : Marked ts [] := ⟨[], List.nil_sublist ts, .nil⟩

theorem cons (hn : Marks t n) (h : Marked ts nodes) : Marked (t :: ts) (n :: nodes) := by
  obtain ⟨marks, sub, marked⟩ := h
  exact ⟨t :: marks, sub.cons_cons t, .cons hn marked⟩

theorem append (h : Marked ts nodes) (h' : Marked ts' nodes') :
    Marked (ts ++ ts') (nodes ++ nodes') := by
  obtain ⟨marks, sub, marked⟩ := h
  obtain ⟨marks', sub', marked'⟩ := h'
  exact ⟨marks ++ marks', sub.append sub', List.rel_append marked marked'⟩

/-- A node behind some others, with more of them behind it. -/
theorem between (h : Marked ts nodes) (hn : Marks t n) (h' : Marked ts' nodes') :
    Marked (ts ++ t :: ts') (nodes ++ n :: nodes') :=
  h.append (h'.cons hn)

theorem exists_mark (h : Marked ts nodes) (hn : n ∈ nodes) : ∃ t ∈ ts, Marks t n := by
  obtain ⟨marks, sub, marked⟩ := h
  obtain ⟨i, hi, rfl⟩ := List.mem_iff_getElem.mp hn
  have hm : i < marks.length := marked.length_eq ▸ hi
  exact ⟨marks[i], sub.subset (List.getElem_mem hm), marked.get hm hi⟩

/-- From left to right, the nodes stand where some of the tokens do. -/
theorem positions_sublist (h : Marked ts nodes) :
    (nodes.map Expr.position).Sublist (ts.map Token.position) := by
  obtain ⟨marks, sub, marked⟩ := h
  have same : marks.map Token.position = nodes.map Expr.position := by
    rw [← List.forall₂_eq_eq_eq, List.forall₂_map_left_iff, List.forall₂_map_right_iff]
    exact marked.imp fun _ _ => Marks.position_eq
  rw [← same]
  exact sub.map _

end Marked

/-- Items are marked by what marks each of them. -/
theorem Item.spread_marked {items : List Item}
    (h : ∀ i ∈ items, Marked i.tokens i.tree.inOrder) :
    Marked (Item.spread items) (Expr.inOrderAll (items.map Item.tree)) := by
  induction items with
  | nil => exact .nil _
  | cons i items ih =>
    rw [List.forall_mem_cons] at h
    rw [Item.spread_cons, List.map_cons, Expr.inOrderAll]
    exact (h.1.append (ih h.2)).mono (List.sublist_cons_self ..)

/-- A chain is marked by its connectives and by what marks its operands. -/
theorem Item.joined_marked {connective : Connective} {items : List Item} {first : Expr}
    {ts : List Token} (hf : Marked ts first.inOrder)
    (words : ∀ i ∈ items, i.mark.kind = .keyword connective.keyword)
    (h : ∀ i ∈ items, Marked i.tokens i.tree.inOrder) :
    Marked (ts ++ Item.spread items) (Item.joined connective first items).inOrder := by
  induction items generalizing first ts with
  | nil => exact hf.mono (List.sublist_append_left ..)
  | cons i items ih =>
    rw [List.forall_mem_cons] at words h
    have more : Marked (ts ++ i.mark :: i.tokens)
        (Expr.logical connective i.mark.position first i.tree).inOrder := by
      rw [Expr.inOrder]
      exact hf.between (.logical words.1) h.1
    have whole := ih more words.2 h.2
    rw [List.append_assoc, List.cons_append] at whole
    exact whole

/-- **The nodes of a derived tree are marked in order** by the tokens that derive it. -/
theorem Derives.marked {c : Category} {ts : List Token} {e : Expr} {n : Nat}
    (h : Derives c ts e n) : Marked ts e.inOrder := by
  induction h with
  | literal literal => exact .cons (.constant literal) (.nil _)
  | path kind => exact .cons (.property kind) (.nil _)
  | group _ _ _ ih =>
    exact ih.mono ((List.sublist_append_left ..).trans (List.sublist_cons_self ..))
  | callEmpty kind => exact .cons (.call kind) (.nil _)
  | @call _ _ closing _ _ _ _ kind _ _ _ _ _ ihf iho =>
    rw [Expr.inOrder, Expr.inOrderAll]
    have others := (Item.spread_marked iho).mono (List.sublist_append_left _ [closing])
    exact .cons (.call kind) ((ihf.append others).mono (List.sublist_cons_self ..))
  | side _ ih | plain _ ih => exact ih
  | comparison _ kind _ ihl ihr =>
    rw [Expr.inOrder]
    exact ihl.between (.comparison kind) ihr
  | negation kind _ ih =>
    rw [Expr.inOrder]
    exact ih.cons (.negation kind)
  | chain _ words _ ihf iho => exact Item.joined_marked ihf words iho

theorem DerivesSelection.marked {ts : List Token} {predicate : Option Expr} {n : Nat}
    (h : DerivesSelection ts predicate n) : ∀ e ∈ predicate, Marked ts e.inOrder := by
  cases h with
  | all =>
    intro e he
    cases he
  | some derives =>
    rintro e ⟨⟩
    exact derives.marked

end Grammar

/-! ### Sort clauses -/

/-- Among the tokens, a bar, `sort` and the first name of the path come one behind the other, and
the clause stands at this `sort`. -/
def SortClause.ReadOff (clause : SortClause) (tokens : List Token) : Prop :=
  ∃ front bar sort first rest, tokens = front ++ bar :: sort :: first :: rest ∧
    bar.kind = .pipe ∧ sort.kind = .keyword .sort ∧ first.kind = .identifier ∧
    clause.path.head? = some first.value ∧ clause.position = sort.position

/-- A derived sort clause is read off its tokens. -/
theorem Grammar.DerivesSort.readOff {ss : List Token} {sort : Option SortClause}
    (h : DerivesSort ss sort) : ∀ clause ∈ sort, clause.ReadOff ss := by
  cases h with
  | missing =>
    intro clause hc
    cases hc
  | clause barKind sortKind firstKind =>
    rintro clause ⟨⟩
    exact ⟨[], _, _, _, _, rfl, barKind, sortKind, firstKind, rfl, rfl⟩

/-- A sort clause stands at one of the tokens, which is `sort`. -/
theorem SortClause.ReadOff.exists_sort {clause : SortClause} {tokens : List Token}
    (h : clause.ReadOff tokens) :
    ∃ t ∈ tokens, t.kind = .keyword .sort ∧ t.position = clause.position := by
  obtain ⟨front, bar, sort, first, rest, rfl, -, kind, -, -, position⟩ := h
  exact ⟨sort, by simp, kind, position.symm⟩

/-- What is read off some tokens is read off any list that they stand in. -/
theorem SortClause.ReadOff.within {clause : SortClause} {tokens : List Token}
    (h : clause.ReadOff tokens) (before after : List Token) :
    clause.ReadOff (before ++ (tokens ++ after)) := by
  obtain ⟨front, bar, sort, first, rest, rfl, kinds⟩ := h
  exact ⟨before ++ front, bar, sort, first, rest ++ after, by simp, kinds⟩

/-! ### Positions of nodes -/

namespace Expr

open Grammar

/-- An operand is a child of its node. -/
theorem Operand.child {m n : Expr} {cause : SemanticError} (h : Operand n m cause) :
    Child n m := by
  cases h with
  | left => exact .left ..
  | right => exact .right ..
  | negated => exact .negated ..

/-- Every node of the tree is one of the language's, and stands at one of the tokens. -/
def StandsOn (ts : List Token) (e : Expr) : Prop :=
  ∀ m, Within m e → (∀ tag, m ≠ .foreign tag) ∧ ∃ t ∈ ts, t.position = m.position

namespace StandsOn

variable {ts : List Token} {e : Expr}

theorem root (h : e.StandsOn ts) : ∃ t ∈ ts, t.position = e.position := (h e (.refl e)).2

/-- A problem of the tree is located at one of the tokens. -/
theorem blames (h : e.StandsOn ts) {p : Problem} (hp : e.Blames p) :
    ∃ t ∈ ts, ∃ cause, p = .semantic ⟨t.position, cause⟩ := by
  have located : ∀ {n : Expr} (cause : SemanticError), Within n e →
      ∃ t ∈ ts, ∃ cause',
        Problem.semantic ⟨n.position, cause⟩ = .semantic ⟨t.position, cause'⟩ := by
    intro n cause hn
    obtain ⟨t, ht, position⟩ := (h n hn).2
    exact ⟨t, ht, cause, by rw [position]⟩
  cases hp with
  | fault cause hn _ => exact located cause hn
  | @operand m n k cause hm ho _ _ =>
    exact located cause ((Within.step (.refl n) ho.child).trans hm)
  | @foreign tag hf => exact absurd rfl ((h _ hf).1 tag)

/-- A tree that is no test of photos is refused at one of the tokens. -/
theorem predicate_error (h : e.StandsOn ts) {p : Problem} (hp : e.predicate = .error p) :
    ∃ t ∈ ts, ∃ cause, p = .semantic ⟨t.position, cause⟩ := by
  rcases predicate_eq_error hp with blamed | ⟨k, -, -, rfl⟩
  · exact h.blames blamed
  · obtain ⟨t, ht, position⟩ := h.root
    exact ⟨t, ht, .predicateNotBoolean, by rw [position]⟩

end StandsOn

end Expr

/-- Every node of a derived tree stands at one of the tokens. -/
theorem Grammar.Derives.standsOn {c : Category} {ts : List Token} {e : Expr} {n : Nat}
    (h : Derives c ts e n) : e.StandsOn ts := by
  intro m hm
  obtain ⟨t, ht, marks⟩ := h.marked.exists_mark hm.mem_inOrder
  exact ⟨marks.ne_foreign, t, ht, marks.position_eq⟩

end PhotoQuery
