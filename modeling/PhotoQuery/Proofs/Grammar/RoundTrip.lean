import PhotoQuery.Proofs.Grammar.Print

/-!
# Grammar — reading what was printed

`Reads c words e n` says that the words, wherever they stand in a source, derive in the category
`c` a tree that is `e` but for its positions, at the cost `n`.  There is one lemma for each form of
tree, and together they give it for the words of a whole tree (`Expr.Printable.reads`).

* `Query.Printable.reads`: the words of a query derive it, up to positions, at the cost
  `Query.cost`.
* `ofSource_print`: a printed query is read back, up to positions, if that cost is at most
  `maxNestingDepth`.
-/

namespace PhotoQuery

open Text Grammar

/-- However the words are placed, they derive the tree, up to positions, at the cost. -/
def Reads (c : Category) (words : List Word) (e : Expr) (n : Nat) : Prop :=
  ∀ ts : List Token, ts.map Token.word = words → ∃ e', Derives c ts e' n ∧ e'.erase = e

/-! ### Placed words -/

theorem kind_of_word {t : Token} {w : Word} (h : t.word = w) : t.kind = w.kind := by
  rw [← h]
  rfl

theorem value_of_word {t : Token} {w : Word} (h : t.word = w) : t.value = w.value := by
  rw [← h]
  rfl

/-- Placed segments are dots and names. -/
theorem segments_placed {names : List Text} {ts : List Token}
    (h : ts.map Token.word = Word.segments names) : Segments ts names := by
  induction names generalizing ts with
  | nil =>
    rw [List.map_eq_nil_iff.mp h]
    exact .nil
  | cons n names ih =>
    obtain ⟨dot, behind, rfl, hd, hb⟩ := List.map_eq_cons_iff.mp h
    obtain ⟨name, rest, rfl, hn, hr⟩ := List.map_eq_cons_iff.mp hb
    obtain rfl : name.value = n := value_of_word hn
    exact .cons (kind_of_word hd) (kind_of_word hn) (ih hr)

/-! ### Each form of tree -/

section

variable {words words₁ words₂ : List Word} {e e₁ e₂ : Expr} {n n₁ n₂ : Nat}

/-- Parentheses cost a level, and leave the tree as it is. -/
theorem Reads.group (h : Reads .disjunction words e n) :
    Reads .primary (Word.grouped words) e (n + 1) := by
  intro ts hts
  obtain ⟨opening, ts, rfl, ho, hts⟩ := List.map_eq_cons_iff.mp hts
  obtain ⟨inside, ts, rfl, hi, hts⟩ := List.map_eq_append_iff.mp hts
  obtain ⟨closing, ts, rfl, hc, hts⟩ := List.map_eq_cons_iff.mp hts
  obtain rfl := List.map_eq_nil_iff.mp hts
  obtain ⟨e', derives, erased⟩ := h inside hi
  exact ⟨e', .group (kind_of_word ho) derives (kind_of_word hc), erased⟩

theorem Reads.unary (h : Reads .primary words e n) : Reads .unary words e n := by
  intro ts hts
  obtain ⟨e', derives, erased⟩ := h ts hts
  exact ⟨e', .plain (.side derives), erased⟩

theorem Reads.disjunction (h : Reads .unary words e n) : Reads .disjunction words e n := by
  intro ts hts
  obtain ⟨e', derives, erased⟩ := h ts hts
  exact ⟨e', .ofUnary derives, erased⟩

/-- A primary is an operand of either connective. -/
theorem Reads.operand (c : Connective) (h : Reads .primary words e n) :
    Reads (.operand c) words e n := by
  intro ts hts
  obtain ⟨e', derives, erased⟩ := h.unary ts hts
  cases c with
  | and => exact ⟨e', derives, erased⟩
  | or => exact ⟨e', .alone .and derives, erased⟩

theorem Reads.logical (c : Connective) (h₁ : Reads .primary words₁ e₁ n₁)
    (h₂ : Reads .primary words₂ e₂ n₂) :
    Reads .disjunction (words₁ ++ .keyword c.keyword :: words₂) (.logical c 0 e₁ e₂)
      (chainCost [n₁, n₂]) := by
  intro ts hts
  obtain ⟨left, ts, rfl, hl, hts⟩ := List.map_eq_append_iff.mp hts
  obtain ⟨mark, right, rfl, hm, hr⟩ := List.map_eq_cons_iff.mp hts
  obtain ⟨l, derivesLeft, rfl⟩ := h₁.operand c left hl
  obtain ⟨r, derivesRight, rfl⟩ := h₂.operand c right hr
  have chain : Derives (.chain c) (left ++ Item.spread [⟨mark, right, r, n₂⟩])
      (.logical c mark.position l r) (chainCost [n₁, n₂]) :=
    .chain derivesLeft (List.forall_mem_singleton.mpr (kind_of_word hm))
      (List.forall_mem_singleton.mpr derivesRight)
  have spread : Item.spread [⟨mark, right, r, n₂⟩] = mark :: right := List.append_nil _
  rw [spread] at chain
  refine ⟨.logical c mark.position l r, ?_, by rw [Expr.erase]⟩
  cases c with
  | and => exact .alone .or chain
  | or => exact chain

theorem Reads.comparison (op : Comparison) (h₁ : Reads .primary words₁ e₁ n₁)
    (h₂ : Reads .primary words₂ e₂ n₂) :
    Reads .unary (words₁ ++ .symbol op :: words₂) (.comparison op 0 e₁ e₂) (max n₁ n₂) := by
  intro ts hts
  obtain ⟨left, ts, rfl, hl, hts⟩ := List.map_eq_append_iff.mp hts
  obtain ⟨mark, right, rfl, hm, hr⟩ := List.map_eq_cons_iff.mp hts
  obtain ⟨l, derivesLeft, rfl⟩ := h₁ left hl
  obtain ⟨r, derivesRight, rfl⟩ := h₂ right hr
  exact ⟨.comparison op mark.position l r,
    .plain (.comparison derivesLeft (kind_of_word hm) derivesRight), by rw [Expr.erase]⟩

/-- An operand behind `not`, which costs a level. -/
theorem Reads.negation (h : Reads .unary words e n) :
    Reads .unary (.keyword .not :: words) (.negation 0 e) (n + 1) := by
  intro ts hts
  obtain ⟨mark, ts, rfl, hm, hts⟩ := List.map_eq_cons_iff.mp hts
  obtain ⟨e', derives, rfl⟩ := h ts hts
  exact ⟨.negation mark.position e', .negation (kind_of_word hm) derives, by rw [Expr.erase]⟩

theorem Reads.property {path : List Text} (hp : path ≠ []) :
    Reads .primary (Word.path path) (.property path 0) 0 := by
  intro ts hts
  obtain ⟨first, names, rfl⟩ := List.exists_cons_of_ne_nil hp
  obtain ⟨t, rest, rfl, ht, hr⟩ := List.map_eq_cons_iff.mp hts
  obtain rfl : t.value = first := value_of_word ht
  exact ⟨.property (t.value :: names) t.position, .path (kind_of_word ht) (segments_placed hr),
    by rw [Expr.erase]⟩

end

/-- A printed constant is a literal of its token. -/
theorem Constant.Printable.literal {decimals : Number → Text} {value : Constant}
    (h : value.Printable decimals) {t : Token} (ht : t.word = Word.literal decimals value) :
    Literal t value := by
  have kind := kind_of_word ht
  have text := value_of_word ht
  cases h with
  | string s =>
    obtain rfl : t.value = s := text
    exact .string kind
  | @integer n hn =>
    have digits : t.value = ofNat n := by
      simpa [Word.literal, Number.safeInteger?_ofNat, hn] using text
    have shape : IsNumeral t.value := by
      rw [digits]
      exact isNumeral_ofNat n
    have denotes : numeral t.value = n := by rw [digits, numeral_ofNat]
    rw [← denotes] at hn ⊢
    exact .integer kind shape hn
  | @decimal number whole fraction hw hf hn hd =>
    subst hn
    exact .decimal kind hw hf (text.trans hd)
  | boolean truth =>
    cases truth with
    | true => exact .true kind
    | false => exact .false kind
  | null => exact .null kind

theorem Reads.constant {decimals : Number → Text} {value : Constant}
    (h : value.Printable decimals) :
    Reads .primary [.literal decimals value] (.constant value 0) 0 := by
  intro ts hts
  obtain ⟨t, rest, rfl, ht, hr⟩ := List.map_eq_cons_iff.mp hts
  obtain rfl := List.map_eq_nil_iff.mp hr
  exact ⟨.constant value t.position, .literal (h.literal ht), by rw [Expr.erase]⟩

/-- A call without arguments, which costs a level. -/
theorem Reads.callEmpty (name : Text) :
    Reads .primary [.name name, .opening, .closing] (.call name 0 []) 1 := by
  intro ts hts
  obtain ⟨t, ts₁, rfl, ht, h₁⟩ := List.map_eq_cons_iff.mp hts
  obtain ⟨opening, ts₂, rfl, ho, h₂⟩ := List.map_eq_cons_iff.mp h₁
  obtain ⟨closing, ts₃, rfl, hc, h₃⟩ := List.map_eq_cons_iff.mp h₂
  obtain rfl := List.map_eq_nil_iff.mp h₃
  obtain rfl : t.value = name := value_of_word ht
  exact ⟨.call t.value t.position [],
    .callEmpty (kind_of_word ht) (kind_of_word ho) (kind_of_word hc),
    by rw [Expr.erase, Expr.eraseAll]⟩

theorem Expr.eraseAll_eq_map (es : List Expr) : eraseAll es = es.map erase := by
  induction es with
  | nil => rw [eraseAll, List.map_nil]
  | cons e es ih => rw [eraseAll, List.map_cons, ih]

theorem Expr.costs_eq_map (es : List Expr) : costs es = es.map cost := by
  induction es with
  | nil => rw [costs, List.map_nil]
  | cons e es ih => rw [costs, List.map_cons, ih]

/-- The arguments of a call behind its first one, as they are placed. -/
theorem moreWords_placed {decimals : Number → Text} {es : List Expr}
    (h : ∀ e ∈ es, Reads .disjunction (e.words decimals) e.erase e.cost) {ts : List Token}
    (hts : ts.map Token.word = Expr.moreWords decimals es) :
    ∃ items : List Item, ts = Item.spread items ∧ (∀ i ∈ items, i.mark.kind = .comma) ∧
      (∀ i ∈ items, Derives .disjunction i.tokens i.tree i.cost) ∧
      (items.map Item.tree).map Expr.erase = es.map Expr.erase ∧
      items.map Item.cost = es.map Expr.cost := by
  induction es generalizing ts with
  | nil =>
    rw [Expr.moreWords] at hts
    exact ⟨[], List.map_eq_nil_iff.mp hts, List.forall_mem_nil _, List.forall_mem_nil _, rfl, rfl⟩
  | cons e es ih =>
    rw [List.forall_mem_cons] at h
    rw [Expr.moreWords] at hts
    -- a comma, the words of the argument, and those of the others
    obtain ⟨comma, ts₁, rfl, hc, h₁⟩ := List.map_eq_cons_iff.mp hts
    obtain ⟨own, ts₂, rfl, ho, h₂⟩ := List.map_eq_append_iff.mp h₁
    obtain ⟨tree, derives, erased⟩ := h.1 own ho
    obtain ⟨items, rfl, commas, others, trees, costs⟩ := ih h.2 h₂
    refine ⟨⟨comma, own, tree, e.cost⟩ :: items, rfl, ?_, ?_, ?_, ?_⟩
    · exact List.forall_mem_cons.mpr ⟨kind_of_word hc, commas⟩
    · exact List.forall_mem_cons.mpr ⟨derives, others⟩
    · rw [List.map_cons, List.map_cons, List.map_cons, erased, trees]
    · rw [List.map_cons, List.map_cons, costs]

/-- A call with arguments, a level dearer than the dearest of them. -/
theorem Reads.call {decimals : Number → Text} (name : Text) {first : Expr} {more : List Expr}
    (hf : Reads .disjunction (first.words decimals) first.erase first.cost)
    (hm : ∀ e ∈ more, Reads .disjunction (e.words decimals) e.erase e.cost) :
    Reads .primary (Expr.words decimals (.call name 0 (first :: more)))
      (Expr.erase (.call name 0 (first :: more))) (Expr.cost (.call name 0 (first :: more))) := by
  intro ts hts
  rw [Expr.words] at hts
  obtain ⟨t, ts₁, rfl, ht, h₁⟩ := List.map_eq_cons_iff.mp hts
  obtain ⟨opening, ts₂, rfl, ho, h₂⟩ := List.map_eq_cons_iff.mp h₁
  obtain ⟨own, ts₃, rfl, hown, h₃⟩ := List.map_eq_append_iff.mp h₂
  obtain ⟨others, ts₄, rfl, hothers, h₄⟩ := List.map_eq_append_iff.mp h₃
  obtain ⟨closing, ts₅, rfl, hc, h₅⟩ := List.map_eq_cons_iff.mp h₄
  obtain rfl := List.map_eq_nil_iff.mp h₅
  obtain rfl : t.value = name := value_of_word ht
  obtain ⟨tree, derives, erased⟩ := hf own hown
  obtain ⟨items, rfl, commas, derived, trees, costs⟩ := moreWords_placed hm hothers
  refine ⟨.call t.value t.position (tree :: items.map Item.tree), ?_, ?_⟩
  · rw [Expr.cost, Expr.costs, Expr.costs_eq_map, ← costs]
    exact .call (kind_of_word ht) (kind_of_word ho) derives commas derived (kind_of_word hc)
  · rw [Expr.erase, Expr.erase, Expr.eraseAll_eq_map, Expr.eraseAll_eq_map, List.map_cons,
      List.map_cons, erased, trees]

/-! ### Trees and queries -/

/-- **The words of a tree**, wherever they stand, derive it up to positions. -/
theorem Expr.Printable.reads {decimals : Number → Text} {e : Expr} (h : e.Printable decimals) :
    Reads .disjunction (e.words decimals) e.erase e.cost := by
  induction h with
  | @logical c _ _ _ _ _ ihl ihr =>
    rw [words, erase, cost]
    exact .logical c ihl.group ihr.group
  | @comparison op _ _ _ _ _ ihl ihr =>
    rw [words, erase, cost]
    exact (Reads.comparison op ihl.group ihr.group).disjunction
  | negation _ ih =>
    rw [words, erase, cost]
    exact (Reads.negation ih.group.unary).disjunction
  | @call name _ args _ _ ih =>
    cases args with
    | nil =>
      rw [words, erase, cost, eraseAll, costs]
      exact (Reads.callEmpty name).unary.disjunction
    | cons first more =>
      rw [List.forall_mem_cons] at ih
      have reads := (Reads.call name ih.1 ih.2).unary.disjunction
      rw [words, erase, cost] at reads ⊢
      exact reads
  | property hp _ =>
    rw [words, erase, cost]
    exact (Reads.property hp).unary.disjunction
  | constant hv =>
    rw [words, erase, cost]
    exact (Reads.constant hv).unary.disjunction

theorem direction_placed {d : Direction} {ts : List Token}
    (h : ts.map Token.word =
      [.keyword (match d with | .ascending => .asc | .descending => .desc)]) :
    DerivesDirection ts d := by
  obtain ⟨t, rest, rfl, ht, hr⟩ := List.map_eq_cons_iff.mp h
  obtain rfl := List.map_eq_nil_iff.mp hr
  cases d with
  | ascending => exact .ascending (kind_of_word ht)
  | descending => exact .descending (kind_of_word ht)

/-- A printed sort clause is read as it was, but for its position. -/
theorem sort_placed {s : SortClause} (hp : s.path ≠ []) {ts : List Token}
    (h : ts.map Token.word = s.words) :
    ∃ position, DerivesSort ts (some { s with position := position }) := by
  obtain ⟨path, direction, position⟩ := s
  obtain ⟨first, names, rfl⟩ := List.exists_cons_of_ne_nil hp
  obtain ⟨bar, ts₁, rfl, hb, h₁⟩ := List.map_eq_cons_iff.mp h
  obtain ⟨sort, ts₂, rfl, hs, h₂⟩ := List.map_eq_cons_iff.mp h₁
  obtain ⟨t, ts₃, rfl, ht, h₃⟩ := List.map_eq_cons_iff.mp h₂
  obtain ⟨behind, ts₄, rfl, hn, h₄⟩ := List.map_eq_append_iff.mp h₃
  obtain rfl : t.value = first := value_of_word ht
  exact ⟨sort.position, .clause (kind_of_word hb) (kind_of_word hs) (kind_of_word ht)
    (segments_placed hn) (direction_placed h₄)⟩

theorem limit_placed {n : Nat} (hn : 1 ≤ n ∧ n ≤ maxSafe) {ts : List Token}
    (h : ts.map Token.word = limitWords n) : DerivesLimit ts (some n) := by
  obtain ⟨bar, ts₁, rfl, hb, h₁⟩ := List.map_eq_cons_iff.mp h
  obtain ⟨limit, ts₂, rfl, hl, h₂⟩ := List.map_eq_cons_iff.mp h₁
  obtain ⟨t, ts₃, rfl, ht, h₃⟩ := List.map_eq_cons_iff.mp h₂
  obtain rfl := List.map_eq_nil_iff.mp h₃
  have digits : t.value = ofNat n := value_of_word ht
  have shape : IsNumeral t.value := by
    rw [digits]
    exact isNumeral_ofNat n
  have denotes : numeral t.value = n := by rw [digits, numeral_ofNat]
  rw [← denotes] at hn ⊢
  exact .clause (kind_of_word hb) (kind_of_word hl) (kind_of_word ht) shape hn.1 hn.2

/-- The words of a query, with an end behind them, derive it up to positions. -/
theorem Query.Printable.reads {decimals : Number → Text} {q : Query} (h : q.Printable decimals)
    {ts : List Token} {last : Token} (hts : ts.map Token.word = q.words decimals)
    (lastKind : last.kind = .eof) :
    ∃ q', DerivesQuery (ts ++ [last]) q' q.cost ∧ q'.erase = q.erase := by
  obtain ⟨predicate, sort, limit⟩ := q
  -- the tokens fall apart as the words do: a selection, a sort clause, a limit
  obtain ⟨selected, clauses, rfl, hs, hc⟩ := List.map_eq_append_iff.mp hts
  obtain ⟨sorted, limited, rfl, ho, hl⟩ := List.map_eq_append_iff.mp hc
  have selection : ∃ p, DerivesSelection selected p (Query.cost ⟨predicate, sort, limit⟩) ∧
      p.map Expr.erase = predicate.map Expr.erase := by
    cases predicate with
    | none =>
      obtain ⟨t, rest, rfl, ht, hr⟩ := List.map_eq_cons_iff.mp hs
      obtain rfl := List.map_eq_nil_iff.mp hr
      exact ⟨none, .all (kind_of_word ht), rfl⟩
    | some e =>
      obtain ⟨e', derives, erased⟩ := (h.predicate e rfl).reads selected hs
      exact ⟨some e', .some derives, congrArg some erased⟩
  have sorting : ∃ s, DerivesSort sorted s ∧
      s.map (fun s => { s with position := 0 }) = sort.map fun s => { s with position := 0 } := by
    cases sort with
    | none =>
      obtain rfl := List.map_eq_nil_iff.mp ho
      exact ⟨none, .missing, rfl⟩
    | some s =>
      obtain ⟨position, derives⟩ := sort_placed (h.sort s rfl).1 ho
      exact ⟨_, derives, rfl⟩
  have limiting : DerivesLimit limited limit := by
    cases limit with
    | none =>
      obtain rfl := List.map_eq_nil_iff.mp hl
      exact .missing
    | some n => exact limit_placed (h.limit n rfl) hl
  obtain ⟨p, derivesSelection, erasedSelection⟩ := selection
  obtain ⟨s, derivesSort, erasedSort⟩ := sorting
  refine ⟨⟨p, s, limit⟩, .mk derivesSelection derivesSort limiting lastKind, ?_⟩
  rw [Query.erase, Query.erase, erasedSelection, erasedSort]

/-- **A printed query is read back.**  The tokens of a printed query derive it, up to positions, at
the cost `Query.cost`, and if that is at most `maxNestingDepth` then it is what the source is read
as. -/
theorem ofSource_print {quote : CodeUnit} {decimals : Number → Text} {q : Query}
    (hq : isQuote quote) (h : q.Printable decimals) :
    ∃ tokens q', tokenize (q.print quote decimals) = .ok tokens ∧
      DerivesQuery tokens q' q.cost ∧ q'.erase = q.erase ∧
      (q.cost ≤ maxNestingDepth → Query.ofSource (q.print quote decimals) = .ok q') := by
  have spells : ∀ w ∈ q.words decimals, Spells w.kind w.value (w.text quote) :=
    fun w hw => Word.spells hq (h.plain w hw)
  obtain ⟨body, placed, tokens⟩ := tokenize_written spells
  -- no lexeme is an end, so the stream is the whole of the printed words
  have inner : ∀ t ∈ body, t.kind ≠ .eof := by
    intro t ht
    have hw : t.word ∈ q.words decimals := by
      rw [← placed]
      exact List.mem_map_of_mem ht
    exact (spells _ hw).kind_ne_eof
  have last : Token.kind ⟨.eof, [], (Word.written quote (q.words decimals)).length⟩ = .eof := rfl
  obtain ⟨q', derives, erased⟩ := h.reads placed last
  refine ⟨_, q', tokens, derives, erased, ?_⟩
  intro shallow
  have stream : TokenStream.ofSource (q.print quote decimals) =
      .ok ⟨body, (q.print quote decimals).length⟩ := by
    rw [TokenStream.ofSource, Query.print, tokens, Outcome.map_ok, takeWhile_closed rfl inner]
  have read : TokenStream.query ⟨body, (q.print quote decimals).length⟩ = .ok q' :=
    queryWithin_complete inner derives shallow
  rw [Query.ofSource, stream, Outcome.mapError_ok, Outcome.ok_bind, read, Outcome.mapError_ok]

/-- `not ( contains ( exif . make , "a\\"b" ) ) | sort date desc | limit 20` and a comparison with a
decimal are read back. -/
theorem ofSource_print_contains :
    let test : Expr := .call (ofString "contains") 0
      [.property [ofString "exif", ofString "make"] 0, .constant (.string (ofString "a\"b")) 0]
    let wide : Expr := .comparison .greaterOrEqual 0 (.property [ofString "width"] 0)
      (.constant (.decimal (.ofFraction (ofString "2") (ofString "5"))) 0)
    let q : Query := ⟨some (.logical .and 0 (.negation 0 test) wide),
      some ⟨[ofString "date"], .descending, 0⟩, some 20⟩
    let source := q.print (unit '"') fun _ => ofString "2.5"
    isQuote (unit '"') ∧ q.Printable (fun _ => ofString "2.5") ∧ q.cost ≤ maxNestingDepth ∧
      ∃ q', Query.ofSource source = .ok q' ∧ q'.erase = q.erase := by
  intro test wide q source
  have decimal : Constant.Printable (fun _ => ofString "2.5")
      (.decimal (.ofFraction (ofString "2") (ofString "5"))) :=
    .decimal (by decide) (by decide) rfl rfl
  have path : ∀ {names : List Text}, (names.all fun n => decide n.IsName) → ∀ n ∈ names, n.IsName :=
    fun h n hn => of_decide_eq_true (List.all_eq_true.mp h n hn)
  have args : ∀ e ∈ ([.property [ofString "exif", ofString "make"] 0,
      .constant (.string (ofString "a\"b")) 0] : List Expr), e.Printable fun _ => ofString "2.5" :=
    List.forall_mem_cons.mpr ⟨.property (by decide) (path (by decide)),
      List.forall_mem_singleton.mpr (.constant (.string _))⟩
  have tree : Expr.Printable (fun _ => ofString "2.5") (.logical .and 0 (.negation 0 test) wide) :=
    .logical (.negation (.call (by decide) args))
      (.comparison (.property (by decide) (path (by decide))) (.constant decimal))
  have printable : q.Printable fun _ => ofString "2.5" := by
    refine ⟨?_, ?_, ?_⟩
    · rintro e ⟨⟩
      exact tree
    · rintro s ⟨⟩
      exact ⟨by decide, path (by decide)⟩
    · rintro n ⟨⟩
      decide
  have shallow : q.cost ≤ maxNestingDepth := by decide
  obtain ⟨tokens, q', -, -, erased, read⟩ :=
    @ofSource_print (unit '"') (fun _ => ofString "2.5") q (by decide) printable
  exact ⟨by decide, printable, shallow, q', read shallow, erased⟩

end PhotoQuery
