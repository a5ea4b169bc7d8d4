import PhotoQuery.Proofs.Grammar.Places
import PhotoQuery.Proofs.Query.Source

/-!
# Query — what stands at a node

Errors are reported at the positions of a query's nodes, and there the source shows what the node
was read from: an operator, `not`, the name of a call, the first name of a path, or a literal
(`Expr.SpelledIn`).  From left to right the nodes stand from left to right, and the sort clause
stands at its `sort`, behind them all (`Query.ofSource_inPlace`).
-/

namespace PhotoQuery

open Text Grammar

/-! ### What a source spells -/

/-- The text is a whole lexeme of the source at the position: no longer one starts there. -/
def Text.HasLexeme (source : Text) (position : Nat) (text : Text) : Prop :=
  ∃ kind value rest, source.drop position = text ++ rest ∧ Longest kind value text rest

/-- The source has the word at the position, in small letters or capitals. -/
def Text.HasWord (source : Text) (position : Nat) (word : String) : Prop :=
  ∃ text, source.HasLexeme position text ∧ text.lower = ofString word

/-- The text is a literal of the constant. -/
inductive Constant.WrittenAs : Constant → Text → Prop where
  | string {quote : CodeUnit} {body value : Text} (hq : isQuote quote)
      (h : StringBody quote body value) : WrittenAs (.string value) (quote :: body ++ [quote])
  | integer {text : Text} (h : IsNumeral text) (safe : numeral text ≤ maxSafe) :
      WrittenAs (.integer (.ofNat (numeral text))) text
  | decimal {whole fraction : Text} (hw : IsNumeral whole) (hf : IsNumeral fraction) :
      WrittenAs (.decimal (.ofFraction whole fraction)) (whole ++ unit '.' :: fraction)
  | true {text : Text} (h : text.lower = ofString "true") : WrittenAs (.boolean Bool.true) text
  | false {text : Text} (h : text.lower = ofString "false") : WrittenAs (.boolean Bool.false) text
  | null {text : Text} (h : text.lower = ofString "null") : WrittenAs .null text

/-- The source spells the node where the node stands. -/
def Expr.SpelledIn (source : Text) : Expr → Prop
  | .logical connective position _ _ => source.HasWord position connective.word
  | .comparison operator position _ _ => source.HasLexeme position (ofString operator.symbol)
  | .negation position _ => source.HasWord position "not"
  | .call name position _ => source.HasLexeme position name
  | .property path position => ∃ first ∈ path.head?, source.HasLexeme position first
  | .constant value position => ∃ text, source.HasLexeme position text ∧ value.WrittenAs text
  | .foreign _ => False

/-! ### The tokens of a run -/

/-- The token is the longest lexeme that starts where it does. -/
def Token.IsOf (t : Token) (source : Text) : Prop :=
  ∃ text rest, source.drop t.position = text ++ rest ∧ Longest t.kind t.value text rest

section

variable {source : Text} {t : Token}

/-- Every token of a run is the longest lexeme where it starts. -/
theorem Run.isOf {body : List Token} (h : Run 0 source body source.length []) :
    ∀ t ∈ body, t.IsOf source := by
  obtain ⟨pieces, rfl, layout⟩ := h.layout rfl
  intro t ht
  obtain ⟨p, hp, rfl⟩ := List.mem_map.mp ht
  obtain ⟨rest, here, longest⟩ := layout.longest p hp
  exact ⟨p.text, rest, here, longest⟩

/-- The tokens of a run stand from left to right. -/
theorem Run.increasing {body : List Token} (h : Run 0 source body source.length []) :
    (body.map Token.position).Pairwise (· < ·) := by
  obtain ⟨pieces, rfl, layout⟩ := h.layout rfl
  exact List.pairwise_map.mpr (List.pairwise_append.mp layout.wellTokenized.increasing).1

namespace Token.IsOf

theorem hasWord {k : Keyword} (h : t.IsOf source) (kind : t.kind = .keyword k) :
    source.HasWord t.position k.spelling := by
  obtain ⟨text, rest, here, longest⟩ := h
  refine ⟨text, ⟨_, _, rest, here, longest⟩, ?_⟩
  rw [kind] at longest
  exact longest.spells.keyword_inv

/-- Apart from strings, a token has as its value what the source shows. -/
theorem hasLexeme (h : t.IsOf source) (kind : t.kind ≠ .string) :
    source.HasLexeme t.position t.value := by
  obtain ⟨text, rest, here, longest⟩ := h
  rw [longest.spells.value_eq kind]
  exact ⟨_, _, rest, here, longest⟩

theorem hasSymbol {op : Comparison} (h : t.IsOf source) (kind : t.kind = .comparison op) :
    source.HasLexeme t.position (ofString op.symbol) := by
  obtain ⟨text, rest, here, longest⟩ := h
  rw [kind] at longest
  obtain rfl := longest.spells.comparison_inv
  exact ⟨_, _, rest, here, longest⟩

/-- A literal's token stands where the source writes the constant. -/
theorem hasLiteral {value : Constant} (h : t.IsOf source) (literal : Literal t value) :
    ∃ text, source.HasLexeme t.position text ∧ value.WrittenAs text := by
  cases literal with
  | string kind =>
    obtain ⟨text, rest, here, longest⟩ := h
    have lexeme : source.HasLexeme t.position text := ⟨_, _, rest, here, longest⟩
    rw [kind] at longest
    obtain ⟨quote, body, hq, hb, rfl⟩ := longest.spells.string_inv
    exact ⟨_, lexeme, .string hq hb⟩
  | integer kind shape safe => exact ⟨_, h.hasLexeme (by simp [kind]), .integer shape safe⟩
  | decimal kind hw hf value =>
    have lexeme := h.hasLexeme (by simp [kind])
    rw [value] at lexeme
    exact ⟨_, lexeme, .decimal hw hf⟩
  | true kind =>
    obtain ⟨text, lexeme, lower⟩ := h.hasWord kind
    exact ⟨text, lexeme, .true lower⟩
  | false kind =>
    obtain ⟨text, lexeme, lower⟩ := h.hasWord kind
    exact ⟨text, lexeme, .false lower⟩
  | null kind =>
    obtain ⟨text, lexeme, lower⟩ := h.hasWord kind
    exact ⟨text, lexeme, .null lower⟩

/-- A node that is read off a token of the source is spelled there. -/
theorem spelledIn {n : Expr} (h : t.IsOf source) (marks : Marks t n) : n.SpelledIn source := by
  cases marks with
  | @logical connective _ _ kind =>
    have word := h.hasWord kind
    cases connective <;> exact word
  | comparison kind => exact h.hasSymbol kind
  | negation kind => exact h.hasWord kind
  | call kind => exact h.hasLexeme (by simp [kind])
  | property kind => exact ⟨_, rfl, h.hasLexeme (by simp [kind])⟩
  | constant literal => exact h.hasLiteral literal

end Token.IsOf

end

/-! ### Queries -/

/-- The query stands in the source as its tokens do: from left to right, the nodes of the predicate
stand at some of the tokens, and each is spelled there; behind them all, the sort clause stands at
its `sort`. -/
structure Query.InPlace (source : Text) (tokens : List Token) (q : Query) : Prop where
  sublist : ∀ e ∈ q.predicate,
    (e.inOrder.map Expr.position).Sublist (tokens.map Token.position)
  increasing : ∀ e ∈ q.predicate, (e.inOrder.map Expr.position).Pairwise (· < ·)
  spelled : ∀ e ∈ q.predicate, ∀ n ∈ e.inOrder, n.SpelledIn source
  sort : ∀ clause ∈ q.sort, clause.ReadOff tokens ∧ source.HasWord clause.position "sort"
  behind : ∀ e ∈ q.predicate, ∀ clause ∈ q.sort, ∀ n ∈ e.inOrder, n.position < clause.position

/-- A query that is derived from the tokens of a source is in place there. -/
theorem Run.inPlace {source : Text} {body : List Token} (run : Run 0 source body source.length [])
    {last : Token} {q : Query} {n : Nat} (h : DerivesQuery (body ++ [last]) q n) :
    q.InPlace source body := by
  generalize whole : body ++ [last] = tokens at h
  cases h with
  | @mk ts ss ls _ predicate sort _ _ selection sorting =>
    obtain ⟨rfl, -⟩ := List.append_inj' whole rfl
    have isOf := run.isOf
    have sublist : ∀ e ∈ predicate, (e.inOrder.map Expr.position).Sublist
        ((ts ++ (ss ++ ls)).map Token.position) := by
      intro e he
      exact ((selection.marked e he).mono (List.sublist_append_left ..)).positions_sublist
    refine ⟨sublist, ?_, ?_, ?_, ?_⟩
    · intro e he
      exact run.increasing.sublist (sublist e he)
    · intro e he m hm
      obtain ⟨t, ht, marks⟩ := (selection.marked e he).exists_mark hm
      exact (isOf t (List.mem_append_left _ ht)).spelledIn marks
    · intro clause hc
      have readOff := sorting.readOff clause hc
      obtain ⟨t, ht, kind, position⟩ := readOff.exists_sort
      refine ⟨readOff.within ts ls, ?_⟩
      rw [← position]
      exact (isOf t (by simp [ht])).hasWord kind
    · -- the node stands at a token of the selection, and the clause at one behind it
      intro e he clause hc m hm
      obtain ⟨t, ht, marks⟩ := (selection.marked e he).exists_mark hm
      obtain ⟨t', ht', -, position⟩ := (sorting.readOff clause hc).exists_sort
      rw [← marks.position_eq, ← position]
      have apart := (List.pairwise_append.mp (List.pairwise_map.mp run.increasing)).2.2
      exact apart t ht t' (List.mem_append_left _ ht')

/-- **Nodes stand where they are spelled.**  A source that is a query has tokens, and the query is
in place among them. -/
theorem Query.ofSource_inPlace {source : Text} {q : Query} (h : Query.ofSource source = .ok q) :
    ∃ body, tokenize source = .ok (body ++ [.endOf source]) ∧ q.InPlace source body := by
  obtain ⟨body, n, run, -, derives⟩ := Query.exists_derives h
  exact ⟨body, tokenize_of_run run, run.inPlace derives⟩

/-- In `(width>=5 OR Not contains(filename,'a'))| Sort date` the nodes stand at `width`, `>=`, `5`,
`OR`, `Not`, `contains`, `filename` and the string, and the clause at `Sort`. -/
theorem Query.ofSource_inPlace_negation :
    let source := ofString "(width>=5 OR Not contains(filename,'a'))| Sort date"
    ∃ q e clause body, Query.ofSource source = .ok q ∧ q.predicate = some e ∧
      q.sort = some clause ∧ e.inOrder.map Expr.position = [1, 6, 8, 10, 13, 17, 26, 35] ∧
      clause.position = 42 ∧ tokenize source = .ok (body ++ [.endOf source]) ∧
      q.InPlace source body := by
  intro source
  have places : (Query.ofSource source).toOption.map (fun q =>
      (q.predicate.map fun e => e.inOrder.map Expr.position, q.sort.map SortClause.position)) =
        some (some [1, 6, 8, 10, 13, 17, 26, 35], some 42) := by
    decide +kernel
  cases h : Query.ofSource source with
  | error problem => rw [h] at places; cases places
  | ok q =>
    rw [h] at places
    obtain ⟨nodes, clauses⟩ := Prod.mk.inj (Option.some.inj places)
    obtain ⟨e, he, nodes⟩ := Option.map_eq_some_iff.mp nodes
    obtain ⟨clause, hc, position⟩ := Option.map_eq_some_iff.mp clauses
    obtain ⟨body, tokens, inPlace⟩ := Query.ofSource_inPlace h
    exact ⟨q, e, clause, body, rfl, he, hc, nodes, position, tokens, inPlace⟩

end PhotoQuery
