import PhotoQuery.Expr.Basic
import PhotoQuery.Proofs.Number.Numeral
import PhotoQuery.Proofs.Number.Safe
import PhotoQuery.Query.Basic
import PhotoQuery.Token.Basic

/-!
# Grammar — derivations

The grammar of queries, as it is documented:

    query        := ( 'all' | or_expr ) sort_clause? limit_clause? EOF
    sort_clause  := '|' 'sort' property ( 'asc' | 'desc' )?
    limit_clause := '|' 'limit' INTEGER
    or_expr      := and_expr ( 'or' and_expr )*
    and_expr     := unary ( 'and' unary )*
    unary        := 'not' unary | comparison
    comparison   := primary ( cmp_op primary )?
    primary      := literal | '(' or_expr ')' | IDENT ( '(' args? ')' | ( '.' IDENT )* )
    args         := or_expr ( ',' or_expr )*

`Derives c ts e n` says that the tokens `ts` are an expression of the category `c`, that its tree is
`e`, and that it nests to the cost `n`.  Operators and connectives are grouped to the left.

The cost is what a bound on the nesting counts.  Parentheses, a call and `not` cost one more than
what is in them; an operand of a chain costs one more for every connective before it; a comparison
costs as much as its dearer side, and a literal or a property costs nothing.

Nothing here mentions a parser.  `Soundness` and `Completeness` prove that the parsers read these
derivations and nothing else.
-/

namespace PhotoQuery.Grammar

open Text

/-! ### Literals and paths -/

/-- The value of a number token is a numeral, or a fraction numeral. -/
structure Shaped (t : Token) : Prop where
  integer : t.kind = .integer → IsNumeral t.value
  decimal : t.kind = .decimal → IsFraction t.value

/-- The constant that a token is a literal of.  An integer must be safe. -/
inductive Literal : Token → Constant → Prop where
  | string {t : Token} (kind : t.kind = .string) : Literal t (.string t.value)
  | integer {t : Token} (kind : t.kind = .integer) (shape : IsNumeral t.value)
      (safe : numeral t.value ≤ maxSafe) : Literal t (.integer (.ofNat (numeral t.value)))
  | decimal {t : Token} {whole fraction : Text} (kind : t.kind = .decimal)
      (hw : IsNumeral whole) (hf : IsNumeral fraction)
      (value : t.value = whole ++ unit '.' :: fraction) :
      Literal t (.decimal (.ofFraction whole fraction))
  | true {t : Token} (kind : t.kind = .keyword .true) : Literal t (.boolean Bool.true)
  | false {t : Token} (kind : t.kind = .keyword .false) : Literal t (.boolean Bool.false)
  | null {t : Token} (kind : t.kind = .keyword .null) : Literal t .null

/-- `( '.' IDENT )*`, and the names in it. -/
inductive Segments : List Token → List Text → Prop where
  | nil : Segments [] []
  | cons {dot name : Token} {ts : List Token} {path : List Text} (dotKind : dot.kind = .dot)
      (nameKind : name.kind = .identifier) (rest : Segments ts path) :
      Segments (dot :: name :: ts) (name.value :: path)

/-! ### Expressions -/

/-- The categories of expressions, from the tightest to the loosest. -/
inductive Category where
  | primary
  | comparison
  | unary
  | conjunction
  | disjunction

/-- An operand behind the connective that joins it on, or an argument behind its comma. -/
structure Item where
  mark : Token
  tokens : List Token
  tree : Expr
  cost : Nat

/-- The tokens of some items, one after the other. -/
def Item.spread (items : List Item) : List Token := items.flatMap fun i => i.mark :: i.tokens

/-- The tree of a chain, grouped to the left. -/
def Item.joined (connective : Connective) (first : Expr) (items : List Item) : Expr :=
  items.foldl (fun left i => .logical connective i.mark.position left i.tree) first

/-- The greatest of some costs. -/
def maxCost (costs : List Nat) : Nat := costs.foldr max 0

/-- The cost of a chain, by the costs of its operands: the greatest `i + cᵢ`. -/
def chainCost (costs : List Nat) : Nat := maxCost (costs.mapIdx (· + ·))

/-- The category of a connective's operands. -/
def Category.operand : Connective → Category
  | .and => .unary
  | .or => .conjunction

/-- The category of a connective's chains. -/
def Category.chain : Connective → Category
  | .and => .conjunction
  | .or => .disjunction

/-- `Derives c ts e n`: the tokens `ts` are an expression of category `c` with the tree `e`, which
nests to the cost `n`. -/
inductive Derives : Category → List Token → Expr → Nat → Prop where
  | literal {t : Token} {v : Constant} (literal : Literal t v) :
      Derives .primary [t] (.constant v t.position) 0
  | path {first : Token} {ts : List Token} {names : List Text} (kind : first.kind = .identifier)
      (segments : Segments ts names) :
      Derives .primary (first :: ts) (.property (first.value :: names) first.position) 0
  | group {opening closing : Token} {ts : List Token} {e : Expr} {n : Nat}
      (openingKind : opening.kind = .leftParen) (inside : Derives .disjunction ts e n)
      (closingKind : closing.kind = .rightParen) :
      Derives .primary (opening :: (ts ++ [closing])) e (n + 1)
  | callEmpty {name opening closing : Token} (nameKind : name.kind = .identifier)
      (openingKind : opening.kind = .leftParen) (closingKind : closing.kind = .rightParen) :
      Derives .primary [name, opening, closing] (.call name.value name.position []) 1
  | call {name opening closing : Token} {ts : List Token} {e : Expr} {n : Nat} {more : List Item}
      (nameKind : name.kind = .identifier) (openingKind : opening.kind = .leftParen)
      (first : Derives .disjunction ts e n) (commas : ∀ i ∈ more, i.mark.kind = .comma)
      (others : ∀ i ∈ more, Derives .disjunction i.tokens i.tree i.cost)
      (closingKind : closing.kind = .rightParen) :
      Derives .primary (name :: opening :: (ts ++ (Item.spread more ++ [closing])))
        (.call name.value name.position (e :: more.map Item.tree))
        (maxCost (n :: more.map Item.cost) + 1)
  | side {ts : List Token} {e : Expr} {n : Nat} (h : Derives .primary ts e n) :
      Derives .comparison ts e n
  | comparison {op : Token} {operator : Comparison} {ts₁ ts₂ : List Token} {l r : Expr}
      {n₁ n₂ : Nat} (left : Derives .primary ts₁ l n₁) (kind : op.kind = .comparison operator)
      (right : Derives .primary ts₂ r n₂) :
      Derives .comparison (ts₁ ++ op :: ts₂) (.comparison operator op.position l r) (max n₁ n₂)
  | plain {ts : List Token} {e : Expr} {n : Nat} (h : Derives .comparison ts e n) :
      Derives .unary ts e n
  | negation {op : Token} {ts : List Token} {e : Expr} {n : Nat} (kind : op.kind = .keyword .not)
      (operand : Derives .unary ts e n) :
      Derives .unary (op :: ts) (.negation op.position e) (n + 1)
  | chain {connective : Connective} {ts : List Token} {e : Expr} {n : Nat} {more : List Item}
      (first : Derives (.operand connective) ts e n)
      (words : ∀ i ∈ more, i.mark.kind = .keyword connective.keyword)
      (others : ∀ i ∈ more, Derives (.operand connective) i.tokens i.tree i.cost) :
      Derives (.chain connective) (ts ++ Item.spread more) (Item.joined connective e more)
        (chainCost (n :: more.map Item.cost))

/-! ### Queries -/

/-- `'all' | or_expr`. -/
inductive DerivesSelection : List Token → Option Expr → Nat → Prop where
  | all {t : Token} (kind : t.kind = .keyword .all) : DerivesSelection [t] none 0
  | some {ts : List Token} {e : Expr} {n : Nat} (h : Derives .disjunction ts e n) :
      DerivesSelection ts (some e) n

/-- `( 'asc' | 'desc' )?`; a missing direction ascends. -/
inductive DerivesDirection : List Token → Direction → Prop where
  | missing : DerivesDirection [] .ascending
  | ascending {t : Token} (kind : t.kind = .keyword .asc) : DerivesDirection [t] .ascending
  | descending {t : Token} (kind : t.kind = .keyword .desc) : DerivesDirection [t] .descending

/-- `sort_clause?`. -/
inductive DerivesSort : List Token → Option SortClause → Prop where
  | missing : DerivesSort [] none
  | clause {bar sort first : Token} {ts ds : List Token} {names : List Text} {d : Direction}
      (barKind : bar.kind = .pipe) (sortKind : sort.kind = .keyword .sort)
      (firstKind : first.kind = .identifier) (segments : Segments ts names)
      (direction : DerivesDirection ds d) :
      DerivesSort (bar :: sort :: first :: (ts ++ ds))
        (some ⟨first.value :: names, d, sort.position⟩)

/-- `limit_clause?`.  The limit is positive and safe. -/
inductive DerivesLimit : List Token → Option Nat → Prop where
  | missing : DerivesLimit [] none
  | clause {bar limit digits : Token} (barKind : bar.kind = .pipe)
      (limitKind : limit.kind = .keyword .limit) (digitsKind : digits.kind = .integer)
      (shape : IsNumeral digits.value) (positive : 1 ≤ numeral digits.value)
      (safe : numeral digits.value ≤ maxSafe) :
      DerivesLimit [bar, limit, digits] (some (numeral digits.value))

/-- `DerivesQuery ts q n`: the tokens `ts` are the query `q`, which nests to the cost `n`. -/
inductive DerivesQuery : List Token → Query → Nat → Prop where
  | mk {ts ss ls : List Token} {last : Token} {predicate : Option Expr} {sort : Option SortClause}
      {limit : Option Nat} {n : Nat} (selection : DerivesSelection ts predicate n)
      (sorting : DerivesSort ss sort) (limiting : DerivesLimit ls limit)
      (lastKind : last.kind = .eof) :
      DerivesQuery (ts ++ (ss ++ ls) ++ [last]) ⟨predicate, sort, limit⟩ n

/-! ### Items -/

theorem Item.spread_cons (i : Item) (items : List Item) :
    Item.spread (i :: items) = i.mark :: (i.tokens ++ Item.spread items) := rfl

/-- Every item brings a token of its own. -/
theorem Item.length_le_spread (items : List Item) : items.length ≤ (Item.spread items).length := by
  induction items with
  | nil => exact Nat.le_refl 0
  | cons i items ih =>
    simp only [Item.spread_cons, List.length_cons, List.length_append]
    omega

/-! ### Costs -/

/-- The greatest cost is within a bound if all of them are. -/
theorem maxCost_le_iff {d : Nat} {cs : List Nat} : maxCost cs ≤ d ↔ ∀ c ∈ cs, c ≤ d := by
  induction cs with
  | nil => simp [maxCost]
  | cons c cs ih =>
    rw [show maxCost (c :: cs) = max c (maxCost cs) from rfl, Nat.max_le, ih,
      List.forall_mem_cons]

theorem chainCost_singleton (c : Nat) : chainCost [c] = c := by simp [chainCost, maxCost]

/-- A chain costs at least as much as its first operand. -/
theorem le_chainCost (c : Nat) (cs : List Nat) : c ≤ chainCost (c :: cs) := by
  simp only [chainCost, List.mapIdx_cons, Nat.zero_add]
  exact Nat.le_max_left _ _

/-- Behind its first operand, a chain has one step less to go. -/
theorem chainCost_cons_le_iff {d c : Nat} {cs : List Nat} :
    chainCost (c :: cs) ≤ d + 1 ↔ c ≤ d + 1 ∧ chainCost cs ≤ d := by
  simp only [chainCost, maxCost_le_iff, List.mapIdx_cons, List.forall_mem_cons, Nat.zero_add,
    List.mem_mapIdx]
  refine and_congr_right fun _ => ⟨?_, ?_⟩
  · rintro h m ⟨i, hi, rfl⟩
    have := h _ ⟨i, hi, rfl⟩
    omega
  · rintro h m ⟨i, hi, rfl⟩
    have := h _ ⟨i, hi, rfl⟩
    omega

/-- A chain of two or more operands takes a step. -/
theorem chainCost_pos (c c' : Nat) (cs : List Nat) : 0 < chainCost (c :: c' :: cs) := by
  refine Nat.lt_of_not_le fun h => ?_
  simp only [chainCost, maxCost_le_iff, List.mapIdx_cons, List.forall_mem_cons] at h
  omega

/-! ### Chains of one operand -/

/-- A single operand is a chain, and costs what it costs. -/
theorem Derives.alone (c : Connective) {ts : List Token} {e : Expr} {n : Nat}
    (h : Derives (.operand c) ts e n) : Derives (.chain c) ts e n := by
  have chain := Derives.chain h (List.forall_mem_nil _) (List.forall_mem_nil _)
  rwa [List.map_nil, chainCost_singleton, show Item.spread [] = [] from rfl,
    List.append_nil] at chain

/-- A unary expression is a disjunction of one conjunction of one operand. -/
theorem Derives.ofUnary {ts : List Token} {e : Expr} {n : Nat} (h : Derives .unary ts e n) :
    Derives .disjunction ts e n :=
  .alone .or (.alone .and h)

end PhotoQuery.Grammar
