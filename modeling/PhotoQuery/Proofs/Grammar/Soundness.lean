import PhotoQuery.Proofs.Grammar.Levels

/-!
# Grammar — soundness

What a parser of depth `d` reads off a token list is derived by the tokens it has used, at a cost of
at most `d` (`sound`).  The proof is by induction on the depth: a parser calls parsers of its own
depth that stand before it in the grammar, and parsers of the depth below.
-/

namespace PhotoQuery.Grammar

open PhotoQuery.Parser Outcome

/-! ### Reading off a token list -/

/-- What the parser reads is derived, at a cost of at most `d`. -/
def Sound (p : Parser Expr) (c : Category) (d : Nat) : Prop :=
  ∀ ts e rest, (∀ t ∈ ts, Shaped t) → p ts = .ok (e, rest) →
    ∃ used n, ts = used ++ rest ∧ Derives c used e n ∧ n ≤ d

/-- What is read behind the first operands of a chain are operands behind connectives, and the chain
costs at most `d` if what it goes on from does. -/
def SoundMore (p : Expr → Parser Expr) (c : Connective) (d : Nat) : Prop :=
  ∀ left ts e rest, (∀ t ∈ ts, Shaped t) → p left ts = .ok (e, rest) →
    ∃ items, ts = Item.spread items ++ rest ∧ e = Item.joined c left items ∧
      (∀ i ∈ items, i.mark.kind = .keyword c.keyword) ∧
      (∀ i ∈ items, Derives (.operand c) i.tokens i.tree i.cost) ∧
      ∀ n ≤ d, chainCost (n :: items.map Item.cost) ≤ d

theorem expect_sound {stop : Nat} {kind : TokenKind} {cause : SyntaxError} {ts rest : List Token}
    {t : Token} (h : expect stop kind cause ts = .ok (t, rest)) :
    ts = t :: rest ∧ t.kind = kind := by
  cases ts with
  | nil => simp [expect] at h
  | cons t' ts =>
    simp only [expect] at h
    split at h
    · rename_i hk
      cases h
      exact ⟨rfl, hk⟩
    · cases h

/-- The tokens used for segments are dots and names, and these names are the ones read. -/
theorem segments_sound {stop : Nat} {ts : List Token} {names : List Text} {rest : List Token}
    (h : segments stop ts = .ok (names, rest)) :
    ∃ used, ts = used ++ rest ∧ Segments used names := by
  fun_induction segments stop ts generalizing names rest with
  | case1 => cases h; exact ⟨[], rfl, .nil⟩
  | case2 => cases h
  | case3 dot hdot name ts hname ih =>
    obtain ⟨⟨names', rest'⟩, h, he⟩ := map_eq_ok.mp h
    cases he
    obtain ⟨used, rfl, hs⟩ := ih h
    exact ⟨_, rfl, .cons hdot hname hs⟩
  | case4 => cases h
  | case5 t ts hdot => cases h; exact ⟨[], rfl, .nil⟩

/-- The tokens used for arguments are a disjunction, and more of them behind commas, none dearer
than the parser pays for. -/
theorem arguments_sound {p : Parser Expr} {d : Nat} (hp : Sound p .disjunction d) {k : Nat}
    {ts rest : List Token} {es : List Expr} (hs : ∀ t ∈ ts, Shaped t)
    (h : arguments p k ts = .ok (es, rest)) :
    ∃ used e n items, ts = used ++ (Item.spread items ++ rest) ∧ es = e :: items.map Item.tree ∧
      Derives .disjunction used e n ∧ (∀ i ∈ items, i.mark.kind = .comma) ∧
      (∀ i ∈ items, Derives .disjunction i.tokens i.tree i.cost) ∧
      maxCost (n :: items.map Item.cost) ≤ d := by
  induction k generalizing ts es with
  | zero =>
    obtain ⟨⟨e, rest'⟩, h, he⟩ := map_eq_ok.mp h
    cases he
    obtain ⟨used, n, rfl, hd, hn⟩ := hp _ _ _ hs h
    exact ⟨used, e, n, [], rfl, rfl, hd, by simp, by simp, by simpa [maxCost] using hn⟩
  | succ k ih =>
    rw [arguments] at h
    obtain ⟨⟨e, mid⟩, h₁, h₂⟩ := bind_eq_ok.mp h
    clear h
    obtain ⟨used, n, rfl, hd, hn⟩ := hp _ _ _ hs h₁
    have last : maxCost [n] ≤ d := by simpa [maxCost] using hn
    cases mid with
    -- the argument read is the last one, unless a comma is behind it
    | nil => cases h₂; exact ⟨used, e, n, [], rfl, rfl, hd, by simp, by simp, last⟩
    | cons t mid =>
      dsimp only at h₂
      split at h₂
      · rename_i hk
        obtain ⟨⟨es', rest'⟩, h₃, he⟩ := bind_eq_ok.mp h₂
        cases he
        obtain ⟨used', e', n', items, rfl, rfl, hd', hc, ho, hm⟩ :=
          ih (fun t ht => hs t (by simp [ht])) h₃
        refine ⟨used, e, n, ⟨t, used', e', n'⟩ :: items, by simp [Item.spread_cons], rfl, hd,
          List.forall_mem_cons.mpr ⟨hk, hc⟩, List.forall_mem_cons.mpr ⟨hd', ho⟩, ?_⟩
        rw [maxCost_le_iff] at hm ⊢
        exact List.forall_mem_cons.mpr ⟨hn, hm⟩
      · cases h₂
        exact ⟨used, e, n, [], rfl, rfl, hd, by simp, by simp, last⟩

/-- Going down a level leaves one step less to take. -/
theorem enter_sound {stop d position : Nat} {level : Level}
    (h : enter (below stop d) position = .ok level) :
    ∃ d', d = d' + 1 ∧ level = Parser.level stop d' := by
  cases d with
  | zero => cases h
  | succ d => cases h; exact ⟨d, rfl, rfl⟩

/-- An integer that is read is a safe numeral, as a literal of its token. -/
theorem integer_sound {t : Token} {e : Expr} (kind : t.kind = .integer) (shape : Shaped t)
    (h : Parser.integer t = .ok e) : ∃ v, e = .constant v t.position ∧ Literal t v := by
  simp only [Parser.integer, Number.ofText_numeral (shape.integer kind),
    Number.safeInteger?_ofNat] at h
  split at h
  · rename_i safe
    cases h
    exact ⟨_, rfl, .integer kind (shape.integer kind) safe⟩
  · cases h

/-- A decimal is always a literal of its token; no decimal is too long. -/
theorem decimal_sound {t : Token} (kind : t.kind = .decimal) (shape : Shaped t) :
    Literal t (.decimal (.ofText t.value)) := by
  obtain ⟨whole, fraction, hw, hf, value⟩ := shape.decimal kind
  rw [value, Number.ofText_fraction hw hf]
  exact .decimal kind hw hf value

/-- The parsers of the depth below, if there is one, are sound. -/
def SoundBelow (stop d : Nat) : Prop :=
  ∀ d', d = d' + 1 → (∀ c : Category, Sound (c.parser stop d') c d') ∧
    ∀ c : Connective, SoundMore (more stop d' c) c d'

section

variable {stop d : Nat}

theorem path_sound {first : Token} {ts rest : List Token} {e : Expr}
    (kind : first.kind = .identifier) (h : Parser.path stop first ts = .ok (e, rest)) :
    ∃ used n, first :: ts = used ++ rest ∧ Derives .primary used e n ∧ n ≤ d := by
  obtain ⟨⟨names, rest'⟩, h, he⟩ := map_eq_ok.mp h
  cases he
  obtain ⟨used, rfl, hs⟩ := segments_sound h
  exact ⟨first :: used, 0, rfl, .path kind hs, Nat.zero_le d⟩

/-- The tokens used for a call derive it, and it costs a level. -/
theorem call_sound (lower : SoundBelow stop d) {name opening : Token} {ts rest : List Token}
    {e : Expr} (nameKind : name.kind = .identifier) (openingKind : opening.kind = .leftParen)
    (hs : ∀ t ∈ ts, Shaped t) (h : Parser.call stop (below stop d) name ts = .ok (e, rest)) :
    ∃ used n, name :: opening :: ts = used ++ rest ∧ Derives .primary used e n ∧ n ≤ d := by
  obtain ⟨level, hl, h⟩ := bind_eq_ok.mp h
  obtain ⟨d', rfl, rfl⟩ := enter_sound hl
  obtain ⟨⟨args, mid⟩, ha, h⟩ := bind_eq_ok.mp h
  obtain ⟨⟨closing, rest'⟩, hc, he⟩ := bind_eq_ok.mp h
  cases he
  obtain ⟨rfl, closingKind⟩ := expect_sound hc
  rw [argumentList] at ha
  split at ha
  · cases ha
    exact ⟨[name, opening, closing], 1, rfl, .callEmpty nameKind openingKind closingKind, by omega⟩
  · rw [level_disjunction] at ha
    obtain ⟨used, e, n, items, rfl, rfl, hd, commas, others, hm⟩ :=
      arguments_sound ((lower d' rfl).1 .disjunction) hs ha
    exact ⟨_, _, by simp, .call nameKind openingKind hd commas others closingKind, by omega⟩

/-- A primary is derived by the tokens used for it, whichever of its forms was read. -/
theorem primary_sound (lower : SoundBelow stop d) :
    Sound (Category.primary.parser stop d) .primary d := by
  intro ts e rest hs h
  cases ts with
  | nil => cases h
  | cons t ts =>
    have shape : Shaped t := hs t (by simp)
    have tail : ∀ t ∈ ts, Shaped t := fun t ht => hs t (by simp [ht])
    -- a literal uses its token and costs nothing
    have literal : ∀ {v : Constant}, Literal t v → (.constant v t.position, ts) = (e, rest) →
        ∃ used n, t :: ts = used ++ rest ∧ Derives .primary used e n ∧ n ≤ d := by
      rintro v hv ⟨⟩
      exact ⟨[t], 0, rfl, .literal hv, Nat.zero_le d⟩
    simp only [Category.parser, Parser.primary] at h
    split at h
    -- by the kind of the first token: a parenthesis
    case h_1 kind =>
      obtain ⟨level, hl, h⟩ := bind_eq_ok.mp h
      obtain ⟨d', rfl, rfl⟩ := enter_sound hl
      obtain ⟨⟨e', mid⟩, hd, h⟩ := bind_eq_ok.mp h
      obtain ⟨⟨closing, rest'⟩, hc, he⟩ := bind_eq_ok.mp h
      cases he
      obtain ⟨rfl, closingKind⟩ := expect_sound hc
      rw [level_disjunction] at hd
      obtain ⟨used, n, rfl, hd, hn⟩ := (lower d' rfl).1 .disjunction _ _ _ tail hd
      exact ⟨_, _, by simp, .group kind hd closingKind, by omega⟩
    -- a name: a call if a parenthesis is behind it, and a path otherwise
    case h_2 kind =>
      cases ts with
      | nil => exact path_sound kind h
      | cons next ts =>
        dsimp only at h
        split at h
        · rename_i hk
          exact call_sound lower kind hk (fun t ht => tail t (by simp [ht])) h
        · exact path_sound kind h
    case h_3 kind => exact literal (.string kind) (Except.ok.inj h)
    case h_4 kind =>
      obtain ⟨e', hi, he⟩ := map_eq_ok.mp h
      obtain ⟨v, rfl, hv⟩ := integer_sound kind shape hi
      exact literal hv he
    case h_5 kind => exact literal (decimal_sound kind shape) (Except.ok.inj h)
    case h_6 kind => exact literal (.true kind) (Except.ok.inj h)
    case h_7 kind => exact literal (.false kind) (Except.ok.inj h)
    case h_8 kind => exact literal (.null kind) (Except.ok.inj h)
    case h_9 => cases h

theorem comparison_sound (lower : SoundBelow stop d) :
    Sound (Category.comparison.parser stop d) .comparison d := by
  intro ts e rest hs h
  obtain ⟨⟨l, mid⟩, h₁, h₂⟩ := bind_eq_ok.mp h
  clear h
  obtain ⟨used₁, n₁, rfl, hl, hn₁⟩ := primary_sound lower _ _ _ hs h₁
  cases mid with
  | nil => cases h₂; exact ⟨used₁, n₁, rfl, .side hl, hn₁⟩
  | cons t mid =>
    dsimp only at h₂
    split at h₂
    · cases h₂
      exact ⟨used₁, n₁, rfl, .side hl, hn₁⟩
    · rename_i operator hop
      -- the operator is in the kind of its token
      have kind : t.kind = .comparison operator := by
        simp only [comparisonOf?] at hop
        split at hop
        · rename_i hk
          cases hop
          exact hk
        · cases hop
      obtain ⟨⟨r, rest'⟩, h₃, he⟩ := bind_eq_ok.mp h₂
      cases he
      obtain ⟨used₂, n₂, rfl, hr, hn₂⟩ :=
        primary_sound lower _ _ _ (fun t ht => hs t (by simp [ht])) h₃
      exact ⟨_, _, by simp, .comparison hl kind hr, Nat.max_le.mpr ⟨hn₁, hn₂⟩⟩

/-- A negation costs a level; any other unary is a comparison. -/
theorem unary_sound (lower : SoundBelow stop d) :
    Sound (Category.unary.parser stop d) .unary d := by
  intro ts e rest hs h
  have plain : ∀ {ts}, (∀ t ∈ ts, Shaped t) →
      Category.comparison.parser stop d ts = .ok (e, rest) →
      ∃ used n, ts = used ++ rest ∧ Derives .unary used e n ∧ n ≤ d := by
    intro ts hs h
    obtain ⟨used, n, ht, hd, hn⟩ := comparison_sound lower _ _ _ hs h
    exact ⟨used, n, ht, .plain hd, hn⟩
  cases ts with
  | nil => exact plain hs h
  | cons t ts =>
    simp only [Category.parser, Parser.unary] at h
    split at h
    · rename_i kind
      obtain ⟨level, hl, h⟩ := bind_eq_ok.mp h
      obtain ⟨d', rfl, rfl⟩ := enter_sound hl
      obtain ⟨⟨e', rest'⟩, ho, he⟩ := bind_eq_ok.mp h
      cases he
      rw [level_unary] at ho
      obtain ⟨used, n, rfl, hd, hn⟩ :=
        (lower d' rfl).1 .unary _ _ _ (fun t ht => hs t (by simp [ht])) ho
      exact ⟨_, _, by simp, .negation kind hd, by omega⟩
    · exact plain hs h

/-- Every operand behind the first one is read a level down from where the chain has come to, and
this is what the cost of a chain counts. -/
theorem more_sound (lower : SoundBelow stop d) (c : Connective) :
    SoundMore (more stop d c) c d := by
  intro left ts e rest hs h
  have done : ∀ {ts}, (left, ts) = (e, rest) → ∃ items, ts = Item.spread items ++ rest ∧
      e = Item.joined c left items ∧ (∀ i ∈ items, i.mark.kind = .keyword c.keyword) ∧
      (∀ i ∈ items, Derives (.operand c) i.tokens i.tree i.cost) ∧
      ∀ n ≤ d, chainCost (n :: items.map Item.cost) ≤ d := by
    rintro ts ⟨⟩
    refine ⟨[], rfl, rfl, by simp, by simp, fun n hn => ?_⟩
    rwa [List.map_nil, chainCost_singleton]
  cases ts with
  | nil => rw [more_nil] at h; exact done (Except.ok.inj h)
  | cons t ts =>
    by_cases kind : t.kind = .keyword c.keyword
    · cases d with
      | zero => rw [more_zero kind] at h; cases h
      | succ d =>
        -- the connective takes a step, and all behind it is read one depth below
        rw [more_succ kind] at h
        obtain ⟨⟨r, mid⟩, h₁, h₂⟩ := bind_eq_ok.mp h
        clear h
        obtain ⟨used, n, rfl, hd, hn⟩ :=
          (lower d rfl).1 _ _ _ _ (fun t ht => hs t (by simp [ht])) h₁
        obtain ⟨items, rfl, rfl, words, others, cost⟩ :=
          (lower d rfl).2 c _ _ _ _ (fun t ht => hs t (by simp [ht])) h₂
        exact ⟨⟨t, used, r, n⟩ :: items, by simp [Item.spread_cons], rfl,
          List.forall_mem_cons.mpr ⟨kind, words⟩, List.forall_mem_cons.mpr ⟨hd, others⟩,
          fun m hm => chainCost_cons_le_iff.mpr ⟨hm, cost n hn⟩⟩
    · rw [more_of_ne kind] at h
      exact done (Except.ok.inj h)

theorem chain_sound (lower : SoundBelow stop d) (c : Connective)
    (operand : Sound ((Category.operand c).parser stop d) (.operand c) d) :
    Sound ((Category.chain c).parser stop d) (.chain c) d := by
  intro ts e rest hs h
  rw [parser_chain] at h
  obtain ⟨⟨l, mid⟩, h₁, h₂⟩ := bind_eq_ok.mp h
  clear h
  obtain ⟨used, n, rfl, hd, hn⟩ := operand _ _ _ hs h₁
  obtain ⟨items, rfl, rfl, words, others, cost⟩ :=
    more_sound lower c _ _ _ _ (fun t ht => hs t (by simp [ht])) h₂
  exact ⟨_, _, by simp, .chain hd words others, cost n hn⟩

/-- If the levels below are sound, the parser of every category is. -/
theorem category_sound (lower : SoundBelow stop d) (c : Category) :
    Sound (c.parser stop d) c d := by
  have unary := unary_sound lower
  have conjunction := chain_sound lower .and unary
  cases c with
  | primary => exact primary_sound lower
  | comparison => exact comparison_sound lower
  | unary => exact unary
  | conjunction => exact conjunction
  | disjunction => exact chain_sound lower .or conjunction

end

/-- Every level below is sound, by induction on how many there are. -/
theorem soundBelow (stop d : Nat) : SoundBelow stop d := by
  induction d with
  -- on the depth: nothing lies below depth `0`, and each depth reads by those below it only
  | zero => intro d' h; cases h
  | succ d ih =>
    intro d' h
    cases h
    exact ⟨category_sound ih, more_sound ih⟩

/-- **Soundness**: the tokens that a parser has used derive what it has read, at a cost of at most
its depth. -/
theorem sound (stop d : Nat) (c : Category) : Sound (c.parser stop d) c d :=
  category_sound (soundBelow stop d) c

end PhotoQuery.Grammar
