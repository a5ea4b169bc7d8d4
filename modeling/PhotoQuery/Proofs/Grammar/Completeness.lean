import PhotoQuery.Proofs.Grammar.Levels

/-!
# Grammar — completeness

A derivation that costs at most `d` is read by the parser of depth `d`, in front of any token that
does not go on the expression (`Ends`): this is `complete`.  The proof is by induction on the
derivation, at every depth that pays for it.
-/

namespace PhotoQuery.Grammar

open PhotoQuery.Parser Outcome

/-! ### First tokens and next tokens -/

/-- The place of a category in the grammar, from the tightest. -/
def Category.rank : Category → Nat
  | .primary => 0
  | .comparison => 1
  | .unary => 2
  | .conjunction => 3
  | .disjunction => 4

/-- A token of the kind can start an expression of the category. -/
def Category.starts (c : Category) : TokenKind → Bool
  | .identifier | .string | .integer | .decimal | .leftParen => true
  | .keyword .true | .keyword .false | .keyword .null => true
  | .keyword .not => decide (2 ≤ c.rank)
  | _ => false

/-- A token of the kind, behind an expression of the category, can go it on. -/
def Category.goesOn (c : Category) : TokenKind → Bool
  | .dot | .leftParen => true
  | .comparison _ => decide (1 ≤ c.rank)
  | .keyword .and => decide (3 ≤ c.rank)
  | .keyword .or => decide (4 ≤ c.rank)
  | _ => false

/-- What needs a category of some rank is there for any looser one. -/
theorem rank_decide_mono {c c' : Category} (h : c.rank ≤ c'.rank) {n : Nat}
    (hn : decide (n ≤ c.rank)) : decide (n ≤ c'.rank) :=
  decide_eq_true (Nat.le_trans (of_decide_eq_true hn) h)

theorem starts_mono {c c' : Category} (h : c.rank ≤ c'.rank) {k : TokenKind} (hk : c.starts k) :
    c'.starts k := by
  unfold Category.starts at *
  split at hk
  case h_9 => exact rank_decide_mono h hk
  case h_10 => cases hk
  all_goals rfl

theorem goesOn_mono {c c' : Category} (h : c.rank ≤ c'.rank) {k : TokenKind} (hk : c.goesOn k) :
    c'.goesOn k := by
  unfold Category.goesOn at *
  split at hk
  case h_3 | h_4 | h_5 => exact rank_decide_mono h hk
  case h_6 => cases hk
  all_goals rfl

theorem rank_operand (c : Connective) :
    (Category.operand c).rank + 1 = (Category.chain c).rank := by
  cases c <;> rfl

/-- A derived expression has a first token, which can start it. -/
theorem Derives.head {c : Category} {ts : List Token} {e : Expr} {n : Nat} (h : Derives c ts e n) :
    ∃ t rest, ts = t :: rest ∧ c.starts t.kind := by
  induction h with
  | literal hv => cases hv <;> exact ⟨_, _, rfl, by simp [Category.starts, *]⟩
  | path kind | group kind | callEmpty kind | call kind =>
    exact ⟨_, _, rfl, by simp [Category.starts, kind]⟩
  | negation kind => exact ⟨_, _, rfl, by simp [Category.starts, kind, Category.rank]⟩
  | side _ ih | plain _ ih =>
    obtain ⟨t, rest, rfl, ht⟩ := ih
    exact ⟨t, rest, rfl, starts_mono (by decide) ht⟩
  | comparison _ _ _ ih =>
    obtain ⟨t, rest, rfl, ht⟩ := ih
    exact ⟨t, _, rfl, starts_mono (by decide) ht⟩
  | chain _ _ _ ih =>
    obtain ⟨t, rest, rfl, ht⟩ := ih
    exact ⟨t, _, rfl, starts_mono (by rw [← rank_operand]; exact Nat.le_succ _) ht⟩

/-- The first token of the rest, if there is one, does not go the expression on. -/
def Ends (c : Category) (rest : List Token) : Prop :=
  ∀ t ∈ rest.head?, ¬ c.goesOn t.kind

theorem ends_cons {c : Category} {t : Token} {rest : List Token} :
    Ends c (t :: rest) ↔ ¬ c.goesOn t.kind := by
  simp [Ends]

/-- Where an expression ends, a tighter one at its end does. -/
theorem Ends.tighter {c c' : Category} {rest : List Token} (he : Ends c rest)
    (h : c'.rank ≤ c.rank) : Ends c' rest :=
  fun t ht hk => he t ht (goesOn_mono h hk)

/-- An operand ends at its connective. -/
theorem ends_word {c : Connective} {t : Token} {rest : List Token}
    (kind : t.kind = .keyword c.keyword) : Ends (.operand c) (t :: rest) := by
  rw [ends_cons, kind]
  cases c <;> decide

/-- A chain does not end at its connective. -/
theorem Ends.ne_word {c : Connective} {t : Token} {rest : List Token}
    (he : Ends (.chain c) (t :: rest)) : t.kind ≠ .keyword c.keyword := by
  intro kind
  rw [ends_cons, kind] at he
  cases c <;> exact he rfl

/-- The operands of a chain end at the next connective, and the last of them where the chain
does. -/
theorem Ends.spread {c : Connective} {items : List Item} {rest : List Token}
    (he : Ends (.chain c) rest) (words : ∀ i ∈ items, i.mark.kind = .keyword c.keyword) :
    Ends (.operand c) (Item.spread items ++ rest) := by
  cases items with
  | nil => exact he.tighter (by rw [← rank_operand]; exact Nat.le_succ _)
  | cons i items => exact ends_word (words i (by simp))

/-! ### Completeness -/

/-- The parsers of the category read the derived expression at every depth that pays for it, in
front of any tokens that do not go it on. -/
def Complete (stop : Nat) (c : Category) (used : List Token) (e : Expr) (n : Nat) : Prop :=
  ∀ d, n ≤ d → ∀ rest, Ends c rest → c.parser stop d (used ++ rest) = .ok (e, rest)

section

variable {stop d : Nat}

theorem expect_complete {kind : TokenKind} {cause : SyntaxError} {t : Token} (rest : List Token)
    (h : t.kind = kind) : expect stop kind cause (t :: rest) = .ok (t, rest) := by
  simp [expect, h]

/-- Segments are read up to a token that goes no primary on. -/
theorem segments_complete {used : List Token} {names : List Text} (h : Segments used names)
    {rest : List Token} (he : Ends .primary rest) :
    segments stop (used ++ rest) = .ok (names, rest) := by
  induction h with
  | nil =>
    cases rest with
    | nil => rw [List.nil_append, segments]
    | cons t rest =>
      have dot : t.kind ≠ .dot := fun hk => by simp [ends_cons, hk, Category.goesOn] at he
      rw [List.nil_append, segments.eq_def]
      exact if_neg dot
  | cons dotKind nameKind _ ih =>
    rw [List.cons_append, List.cons_append, segments, if_pos dotKind]
    simp only [nameKind, if_true, ih, map_ok]

theorem path_complete {first : Token} {used : List Token} {names : List Text}
    (kind : first.kind = .identifier) (h : Segments used names) {rest : List Token}
    (he : Ends .primary rest) :
    Category.primary.parser stop d (first :: used ++ rest) =
      .ok (.property (first.value :: names) first.position, rest) := by
  have read : Parser.path stop first (used ++ rest) =
      .ok (.property (first.value :: names) first.position, rest) := by
    rw [Parser.path, segments_complete h he, map_ok]
  simp only [Category.parser, List.cons_append, Parser.primary, kind]
  cases hr : used ++ rest with
  | nil => rwa [hr] at read
  | cons t ts =>
    -- a parenthesis would stand in the rest, where the path does not end at it
    have paren : t.kind ≠ .leftParen := by
      intro hk
      cases h with
      | nil =>
        rw [List.nil_append] at hr
        rw [hr, ends_cons, hk] at he
        exact he rfl
      | cons dotKind =>
        rw [List.cons_append] at hr
        rw [(List.cons.inj hr).1, hk] at dotKind
        cases dotKind
    rw [hr] at read
    simp only [paren, if_false, read]

theorem literal_complete {t : Token} {v : Constant} (h : Literal t v) (rest : List Token) :
    Category.primary.parser stop d (t :: rest) = .ok (.constant v t.position, rest) := by
  cases h with
  | integer kind shape safe =>
    simp [Category.parser, Parser.primary, kind, Parser.integer, Number.ofText_numeral shape,
      Number.safeInteger?_ofNat, safe]
  | decimal kind hw hf value =>
    simp [Category.parser, Parser.primary, kind, value, Number.ofText_fraction hw hf]
  | string kind | true kind | false kind | null kind =>
    simp [Category.parser, Parser.primary, kind]

/-- Arguments are read up to the closing parenthesis, if each of them is read at the depth and their
number is enough. -/
theorem arguments_complete {used : List Token} {e : Expr} {n : Nat} {items : List Item}
    (first : Complete stop .disjunction used e n) (commas : ∀ i ∈ items, i.mark.kind = .comma)
    (others : ∀ i ∈ items, Complete stop .disjunction i.tokens i.tree i.cost)
    (cost : maxCost (n :: items.map Item.cost) ≤ d) {k : Nat} (hk : items.length ≤ k)
    {closing : Token} (closingKind : closing.kind = .rightParen) (rest : List Token) :
    arguments (Category.disjunction.parser stop d) k
        (used ++ (Item.spread items ++ closing :: rest)) =
      .ok (e :: items.map Item.tree, closing :: rest) := by
  have closes : Ends .disjunction (closing :: rest) := by
    rw [ends_cons, closingKind]; decide
  rw [maxCost_le_iff, List.forall_mem_cons] at cost
  induction items generalizing used e n k with
  | nil =>
    have read := first d cost.1 _ closes
    cases k with
    | zero => simp [arguments, Item.spread, read]
    | succ k => simp [arguments, Item.spread, read, closingKind]
  | cons i items ih =>
    obtain ⟨comma, commas⟩ := List.forall_mem_cons.mp commas
    obtain ⟨second, others⟩ := List.forall_mem_cons.mp others
    cases k with
    | zero => cases hk
    | succ k =>
      -- the argument ends at the next comma
      have separates : Ends .disjunction
          (i.mark :: (i.tokens ++ (Item.spread items ++ closing :: rest))) := by
        rw [ends_cons, comma]; decide
      have read := first d cost.1 _ separates
      have tail := ih second commas others (List.forall_mem_cons.mp cost.2)
        (Nat.le_of_succ_le_succ hk)
      simp only [Item.spread_cons, List.cons_append, List.append_assoc]
      simp only [arguments, read, ok_bind, comma, if_true, tail, List.map_cons]

/-- A call with arguments: the closing parenthesis ends the last of them. -/
theorem argumentList_complete {used : List Token} {e : Expr} {n : Nat} {items : List Item}
    (derived : Derives .disjunction used e n)
    (first : Complete stop .disjunction used e n) (commas : ∀ i ∈ items, i.mark.kind = .comma)
    (others : ∀ i ∈ items, Complete stop .disjunction i.tokens i.tree i.cost)
    (cost : maxCost (n :: items.map Item.cost) ≤ d) {closing : Token}
    (closingKind : closing.kind = .rightParen) (rest : List Token) :
    argumentList (Category.disjunction.parser stop d)
        (used ++ (Item.spread items ++ closing :: rest)) =
      .ok (e :: items.map Item.tree, closing :: rest) := by
  obtain ⟨t, used', rfl, starts⟩ := derived.head
  have paren : t.kind ≠ .rightParen := fun hk => by rw [hk] at starts; cases starts
  have fits : items.length ≤ (t :: used' ++ (Item.spread items ++ closing :: rest)).length := by
    have := Item.length_le_spread items
    simp only [List.length_append]
    omega
  rw [argumentList, if_neg (by simp [paren])]
  exact arguments_complete first commas others cost fits closingKind rest

theorem enter_succ (stop d position : Nat) :
    enter (below stop (d + 1)) position = .ok (level stop d) := rfl

theorem primary_eq (stop d : Nat) :
    Category.primary.parser stop d = Parser.primary stop (below stop d) := rfl

/-- A group is read at a depth one greater than what is in it needs. -/
theorem group_complete {opening closing : Token} {ts : List Token} {e : Expr} {n : Nat}
    (openingKind : opening.kind = .leftParen) (closingKind : closing.kind = .rightParen)
    (inside : Complete stop .disjunction ts e n) :
    Complete stop .primary (opening :: (ts ++ [closing])) e (n + 1) := by
  intro d hn rest _
  obtain ⟨d, rfl⟩ : ∃ d', d = d' + 1 := ⟨d - 1, by omega⟩
  have closes : Ends .disjunction (closing :: rest) := by
    rw [ends_cons, closingKind]; decide
  have read := inside d (by omega) _ closes
  simp only [List.cons_append, List.append_assoc, List.nil_append, primary_eq, Parser.primary,
    openingKind, enter_succ, ok_bind, level_disjunction, read, expect_complete rest closingKind]

/-- A call without arguments is read where it can take one level. -/
theorem callEmpty_complete {name opening closing : Token} (nameKind : name.kind = .identifier)
    (openingKind : opening.kind = .leftParen) (closingKind : closing.kind = .rightParen) :
    Complete stop .primary [name, opening, closing] (.call name.value name.position []) 1 := by
  intro d hn rest _
  obtain ⟨d, rfl⟩ : ∃ d', d = d' + 1 := ⟨d - 1, by omega⟩
  have none : (closing :: rest).head?.any (·.kind = .rightParen) := by simp [closingKind]
  simp only [List.cons_append, List.nil_append, primary_eq, Parser.primary, nameKind, openingKind,
    if_true, Parser.call, enter_succ, ok_bind, argumentList, none,
    expect_complete rest closingKind]

/-- A call is read at a depth one greater than its dearest argument needs. -/
theorem call_complete {name opening closing : Token} {ts : List Token} {e : Expr} {n : Nat}
    {more : List Item} (nameKind : name.kind = .identifier)
    (openingKind : opening.kind = .leftParen) (closingKind : closing.kind = .rightParen)
    (derived : Derives .disjunction ts e n) (first : Complete stop .disjunction ts e n)
    (commas : ∀ i ∈ more, i.mark.kind = .comma)
    (others : ∀ i ∈ more, Complete stop .disjunction i.tokens i.tree i.cost) :
    Complete stop .primary (name :: opening :: (ts ++ (Item.spread more ++ [closing])))
      (.call name.value name.position (e :: more.map Item.tree))
      (maxCost (n :: more.map Item.cost) + 1) := by
  intro d hn rest _
  obtain ⟨d, rfl⟩ : ∃ d', d = d' + 1 := ⟨d - 1, by omega⟩
  have read :=
    argumentList_complete (d := d) derived first commas others (by omega) closingKind rest
  simp only [List.cons_append, List.append_assoc, List.nil_append, primary_eq, Parser.primary,
    nameKind, openingKind, if_true, Parser.call, enter_succ, ok_bind, level_disjunction, read,
    expect_complete rest closingKind]

theorem comparisonOf?_of_kind {t : Token} {operator : Comparison}
    (kind : t.kind = .comparison operator) : comparisonOf? t = some operator := by
  simp [comparisonOf?, kind]

/-- A primary is read as a comparison if no comparison symbol is behind it. -/
theorem side_complete {ts : List Token} {e : Expr} {n : Nat} (h : Complete stop .primary ts e n) :
    Complete stop .comparison ts e n := by
  intro d hn rest he
  have read := h d hn rest (he.tighter (by decide))
  simp only [primary_eq] at read
  simp only [Category.parser, Parser.comparison, read, ok_bind]
  cases rest with
  | nil => rfl
  | cons t rest =>
    have none : comparisonOf? t = none := by
      unfold comparisonOf?
      split
      · rename_i kind
        rw [ends_cons, kind] at he
        exact absurd rfl he
      · rfl
    simp only [none]

theorem comparison_complete {op : Token} {operator : Comparison} {ts₁ ts₂ : List Token} {l r : Expr}
    {n₁ n₂ : Nat} (left : Complete stop .primary ts₁ l n₁) (kind : op.kind = .comparison operator)
    (right : Complete stop .primary ts₂ r n₂) :
    Complete stop .comparison (ts₁ ++ op :: ts₂) (.comparison operator op.position l r)
      (max n₁ n₂) := by
  intro d hn rest he
  obtain ⟨hn₁, hn₂⟩ := Nat.max_le.mp hn
  -- the left side ends at the operator
  have separates : Ends .primary (op :: (ts₂ ++ rest)) := by
    rw [ends_cons, kind]
    exact fun h => by cases h
  have read₁ := left d hn₁ _ separates
  have read₂ := right d hn₂ rest (he.tighter (by decide))
  simp only [primary_eq] at read₁ read₂
  simp only [List.append_assoc, List.cons_append, Category.parser, Parser.comparison, read₁,
    ok_bind, comparisonOf?_of_kind kind, read₂]

/-- A comparison is read as a unary: it does not start with `not`. -/
theorem plain_complete {ts : List Token} {e : Expr} {n : Nat} (derived : Derives .comparison ts e n)
    (h : Complete stop .comparison ts e n) : Complete stop .unary ts e n := by
  intro d hn rest he
  have read := h d hn rest (he.tighter (by decide))
  obtain ⟨t, ts, rfl, starts⟩ := derived.head
  -- no comparison starts with `not`, so the parser takes the other arm
  have not : t.kind ≠ .keyword .not := fun kind => by rw [kind] at starts; cases starts
  exact (if_neg not).trans read

/-- A negation is read at a depth one greater than its operand needs. -/
theorem negation_complete {op : Token} {ts : List Token} {e : Expr} {n : Nat}
    (kind : op.kind = .keyword .not) (operand : Complete stop .unary ts e n) :
    Complete stop .unary (op :: ts) (.negation op.position e) (n + 1) := by
  intro d hn rest he
  obtain ⟨d, rfl⟩ : ∃ d', d = d' + 1 := ⟨d - 1, by omega⟩
  have read := operand d (by omega) rest he
  rw [List.cons_append]
  refine (if_pos kind).trans ?_
  simp only [enter_succ, ok_bind, level_unary, read]

/-- The operands of a chain are read on, each a level further down, up to where the chain ends. -/
theorem more_complete {c : Connective} {items : List Item}
    (words : ∀ i ∈ items, i.mark.kind = .keyword c.keyword)
    (others : ∀ i ∈ items, Complete stop (.operand c) i.tokens i.tree i.cost) {n : Nat}
    (cost : chainCost (n :: items.map Item.cost) ≤ d) (left : Expr) {rest : List Token}
    (he : Ends (.chain c) rest) :
    more stop d c left (Item.spread items ++ rest) = .ok (Item.joined c left items, rest) := by
  induction items generalizing d n left with
  | nil =>
    cases rest with
    | nil => exact more_nil stop d c left
    | cons t rest => exact more_of_ne he.ne_word
  | cons i items ih =>
    obtain ⟨kind, words⟩ := List.forall_mem_cons.mp words
    obtain ⟨operand, others⟩ := List.forall_mem_cons.mp others
    -- a chain that goes on costs more than nothing, so there is a step left to take
    obtain ⟨d, rfl⟩ : ∃ d', d = d' + 1 := by
      have := chainCost_pos n i.cost (items.map Item.cost)
      exact ⟨d - 1, by rw [List.map_cons] at cost; omega⟩
    have cost := (chainCost_cons_le_iff.mp cost).2
    have read := operand d (Nat.le_trans (le_chainCost _ _) cost) _ (he.spread words)
    rw [Item.spread_cons, List.cons_append, List.append_assoc, more_succ kind, read, ok_bind]
    exact ih words others cost _

/-- A chain is read at the depth that its cost pays for. -/
theorem chain_complete {c : Connective} {ts : List Token} {e : Expr} {n : Nat} {items : List Item}
    (first : Complete stop (.operand c) ts e n)
    (words : ∀ i ∈ items, i.mark.kind = .keyword c.keyword)
    (others : ∀ i ∈ items, Complete stop (.operand c) i.tokens i.tree i.cost) :
    Complete stop (.chain c) (ts ++ Item.spread items) (Item.joined c e items)
      (chainCost (n :: items.map Item.cost)) := by
  intro d hn rest he
  have read := first d (Nat.le_trans (le_chainCost _ _) hn) _ (he.spread words)
  rw [List.append_assoc, parser_chain, read, ok_bind]
  exact more_complete words others hn e he

end

/-- **Completeness**: a derivation is read at every depth that pays for it, in front of any token
that does not go the expression on. -/
theorem complete {c : Category} {ts : List Token} {e : Expr} {n : Nat} (h : Derives c ts e n)
    (stop : Nat) : Complete stop c ts e n := by
  induction h with
  | literal hv => exact fun d _ rest _ => literal_complete hv rest
  | path kind hs => exact fun d _ rest he => path_complete kind hs he
  | group openingKind _ closingKind ih => exact group_complete openingKind closingKind ih
  | callEmpty nameKind openingKind closingKind =>
    exact callEmpty_complete nameKind openingKind closingKind
  | call nameKind openingKind first commas _ closingKind ih ihs =>
    exact call_complete nameKind openingKind closingKind first ih commas ihs
  | side _ ih => exact side_complete ih
  | comparison _ kind _ ihl ihr => exact comparison_complete ihl kind ihr
  | plain h ih => exact plain_complete h ih
  | negation kind _ ih => exact negation_complete kind ih
  | chain _ words _ ih ihs => exact chain_complete ih words ihs

end PhotoQuery.Grammar
