import PhotoQuery.Proofs.Grammar.Completeness
import PhotoQuery.Proofs.Grammar.Soundness
import PhotoQuery.Query.Parser

/-!
# Grammar — queries

A token list that ends in its only end is read as a query if and only if the grammar derives that
query from it at a cost of at most `maxNestingDepth` (`query_iff_derives`).  Each clause is read
where it stands: a selection ends at a bar, a sort clause at the next bar, a limit at the end.
-/

namespace PhotoQuery.Grammar

open PhotoQuery.Parser Outcome

/-! ### Soundness of the clauses -/

/-- The tokens used for a selection derive it, within the depth. -/
theorem selection_sound {stop d : Nat} {ts rest : List Token} {p : Option Expr}
    (hs : ∀ t ∈ ts, Shaped t) (h : selection stop d ts = .ok (p, rest)) :
    ∃ used n, ts = used ++ rest ∧ DerivesSelection used p n ∧ n ≤ d := by
  cases ts with
  | nil => cases h
  | cons t ts =>
    simp only [selection] at h
    split at h
    · rename_i kind
      cases h
      exact ⟨[t], 0, rfl, .all kind, Nat.zero_le d⟩
    · obtain ⟨⟨e, rest'⟩, h₁, he⟩ := map_eq_ok.mp h
      cases he
      rw [level_disjunction] at h₁
      obtain ⟨used, n, ht, hd, hn⟩ := sound stop d .disjunction _ _ _ hs h₁
      exact ⟨used, n, ht, .some hd, hn⟩

/-- The tokens used for a direction derive it; if there are none, it ascends. -/
theorem direction_sound {ts rest : List Token} {d : Direction} (h : direction ts = .ok (d, rest)) :
    ∃ used, ts = used ++ rest ∧ DerivesDirection used d := by
  cases ts with
  | nil => cases h; exact ⟨[], rfl, .missing⟩
  | cons t ts =>
    simp only [direction] at h
    split at h
    · rename_i kind
      cases h
      exact ⟨[t], rfl, .descending kind⟩
    · split at h
      · rename_i kind
        cases h
        exact ⟨[t], rfl, .ascending kind⟩
      · cases h
        exact ⟨[], rfl, .missing⟩

/-- The tokens used for a sort clause derive it; a bar without `sort` is not used. -/
theorem sortClause_sound {stop : Nat} {ts rest : List Token} {s : Option SortClause}
    (h : sortClause stop ts = .ok (s, rest)) : ∃ used, ts = used ++ rest ∧ DerivesSort used s := by
  unfold sortClause at h
  split at h
  · rename_i bar word ts
    split at h
    · rename_i kinds
      obtain ⟨⟨clause, rest'⟩, h, he⟩ := map_eq_ok.mp h
      cases he
      obtain ⟨⟨first, ts₁⟩, h₁, h⟩ := bind_eq_ok.mp h
      obtain ⟨⟨names, ts₂⟩, h₂, h⟩ := bind_eq_ok.mp h
      obtain ⟨⟨d, ts₃⟩, h₃, he⟩ := bind_eq_ok.mp h
      cases he
      obtain ⟨rfl, firstKind⟩ := expect_sound h₁
      obtain ⟨used₂, rfl, segments⟩ := segments_sound h₂
      obtain ⟨used₃, rfl, direction⟩ := direction_sound h₃
      exact ⟨_, by simp, .clause kinds.1 kinds.2 firstKind segments direction⟩
    · cases h
      exact ⟨[], rfl, .missing⟩
  · cases h
    exact ⟨[], rfl, .missing⟩

/-- The number of a limit is read if and only if it is positive and safe. -/
theorem limitOf_eq_ok {t : Token} (shape : t.value.IsNumeral) {limit : Nat} :
    limitOf t = .ok limit ↔
      1 ≤ t.value.numeral ∧ t.value.numeral ≤ maxSafe ∧ limit = t.value.numeral := by
  simp only [limitOf, Number.ofText_numeral shape, Number.isNonPositive_ofNat,
    Number.safeInteger?_ofNat, decide_eq_true_eq]
  by_cases zero : t.value.numeral = 0
  · simp [zero]
  · by_cases safe : t.value.numeral ≤ maxSafe
    · simp [zero, safe, Nat.one_le_iff_ne_zero, eq_comm]
    · simp [zero, safe]

theorem limitClause_sound {stop : Nat} {ts rest : List Token} {l : Option Nat}
    (hs : ∀ t ∈ ts, Shaped t) (h : limitClause stop ts = .ok (l, rest)) :
    ∃ used, ts = used ++ rest ∧ DerivesLimit used l := by
  cases ts with
  | nil => cases h; exact ⟨[], rfl, .missing⟩
  | cons bar ts =>
    simp only [limitClause] at h
    split at h
    · rename_i barKind
      obtain ⟨⟨word, ts₁⟩, h₁, h⟩ := bind_eq_ok.mp h
      obtain ⟨⟨digits, ts₂⟩, h₂, h⟩ := bind_eq_ok.mp h
      obtain ⟨limit, h₃, he⟩ := bind_eq_ok.mp h
      cases he
      obtain ⟨rfl, wordKind⟩ := expect_sound h₁
      obtain ⟨rfl, digitsKind⟩ := expect_sound h₂
      have shape := (hs digits (by simp)).integer digitsKind
      obtain ⟨positive, safe, rfl⟩ := (limitOf_eq_ok shape).mp h₃
      exact ⟨_, by simp, .clause barKind wordKind digitsKind shape positive safe⟩
    · cases h
      exact ⟨[], rfl, .missing⟩

/-- A query ends well only where all tokens are used. -/
theorem finish_sound {ts : List Token} (h : finish ts = .ok ()) : ts = [] := by
  cases ts with
  | nil => rfl
  | cons t ts => cases h

/-! ### Completeness of the clauses -/

/-- What follows a selection, or a path in a sort clause, starts with a bar or a direction. -/
def Clausal (ts : List Token) : Prop :=
  ∀ t ∈ ts.head?, t.kind = .pipe ∨ t.kind = .keyword .asc ∨ t.kind = .keyword .desc

/-- An expression ends in front of a clause. -/
theorem Clausal.ends {ts : List Token} (h : Clausal ts) (c : Category) : Ends c ts := by
  intro t ht hk
  rcases h t ht with kind | kind | kind <;> rw [kind] at hk <;> cases hk

theorem DerivesLimit.clausal {ls : List Token} {l : Option Nat} (h : DerivesLimit ls l) :
    Clausal ls := by
  cases h with
  | missing => simp [Clausal]
  | clause barKind => simp [Clausal, barKind]

theorem DerivesDirection.clausal {ds ls : List Token} {d : Direction} {l : Option Nat}
    (hd : DerivesDirection ds d) (hl : DerivesLimit ls l) : Clausal (ds ++ ls) := by
  cases hd with
  | missing => exact hl.clausal
  | ascending kind | descending kind => simp [Clausal, kind]

/-- What stands behind a selection is clauses. -/
theorem DerivesSort.clausal {ss ls : List Token} {s : Option SortClause} {l : Option Nat}
    (hs : DerivesSort ss s) (hl : DerivesLimit ls l) : Clausal (ss ++ ls) := by
  cases hs with
  | missing => exact hl.clausal
  | clause barKind => simp [Clausal, barKind]

section

variable {stop : Nat}

theorem selection_complete {d n : Nat} {ts rest : List Token} {p : Option Expr}
    (h : DerivesSelection ts p n) (hn : n ≤ d) (he : Ends .disjunction rest) :
    selection stop d (ts ++ rest) = .ok (p, rest) := by
  cases h with
  | all kind => exact if_pos kind
  | some h =>
    have read := complete h stop d hn rest he
    obtain ⟨t, ts, rfl, starts⟩ := h.head
    -- no expression starts with `all`
    have all : t.kind ≠ .keyword .all := fun kind => by rw [kind] at starts; cases starts
    rw [List.cons_append] at read ⊢
    simp only [selection, all, if_false, level_disjunction, read, map_ok]

theorem direction_complete {ds ls : List Token} {d : Direction} {l : Option Nat}
    (hd : DerivesDirection ds d) (hl : DerivesLimit ls l) :
    direction (ds ++ ls) = .ok (d, ls) := by
  cases hd with
  | missing =>
    cases hl with
    | missing => rfl
    | clause barKind => simp [direction, barKind]
  | ascending kind => simp [direction, kind]
  | descending kind => simp [direction, kind]

/-- A derived sort clause is read in front of a limit clause, and a missing one is not mistaken for
it. -/
theorem sortClause_complete {ss ls : List Token} {s : Option SortClause} {l : Option Nat}
    (hs : DerivesSort ss s) (hl : DerivesLimit ls l) :
    sortClause stop (ss ++ ls) = .ok (s, ls) := by
  cases hs with
  | missing =>
    cases hl with
    | missing => rfl
    | clause _ limitKind => simp [sortClause, limitKind]
  | clause barKind sortKind firstKind segments hd =>
    have read := @segments_complete stop _ _ segments _ ((hd.clausal hl).ends .primary)
    simp only [List.cons_append, List.append_assoc, sortClause, barKind, sortKind, and_self,
      if_true, sortBody, expect_complete _ firstKind, ok_bind, read, direction_complete hd hl,
      map_ok]

theorem limitClause_complete {ls : List Token} {l : Option Nat} (hl : DerivesLimit ls l) :
    limitClause stop ls = .ok (l, []) := by
  cases hl with
  | missing => rfl
  | clause barKind limitKind digitsKind shape positive safe =>
    have read := (limitOf_eq_ok shape).mpr ⟨positive, safe, rfl⟩
    simp only [limitClause, barKind, if_true, expect_complete _ limitKind,
      expect_complete _ digitsKind, ok_bind, read]

end

/-! ### Queries -/

/-- What stands before the first end is everything but the end itself. -/
theorem takeWhile_closed {body : List Token} {last : Token} (lastKind : last.kind = .eof)
    (inner : ∀ t ∈ body, t.kind ≠ .eof) : (body ++ [last]).takeWhile (·.kind ≠ .eof) = body := by
  rw [List.takeWhile_append_of_pos (by simpa using inner), List.takeWhile_cons_of_neg (by simpa),
    List.append_nil]

/-- A list that ends in its only end is the stream of the tokens before it. -/
theorem ofTokens?_closed {body : List Token} {last : Token} (lastKind : last.kind = .eof)
    (inner : ∀ t ∈ body, t.kind ≠ .eof) :
    TokenStream.ofTokens? (body ++ [last]) = some ⟨body, last.position⟩ := by
  have found : (body ++ [last]).find? (·.kind = .eof) = some last := by
    rw [List.find?_append, List.find?_eq_none.mpr (by simpa using inner)]
    simp [lastKind]
  simp only [TokenStream.ofTokens?, List.getLast?_append, List.getLast?_singleton, Option.some_or,
    found, lastKind, if_true, takeWhile_closed lastKind inner]

/-- What is read as a query is derived, at a cost of at most the depth. -/
theorem queryWithin_sound {d : Nat} {stream : TokenStream} {q : Query} {last : Token}
    (hs : ∀ t ∈ stream.tokens, Shaped t) (lastKind : last.kind = .eof)
    (h : stream.queryWithin d = .ok q) :
    ∃ n, n ≤ d ∧ DerivesQuery (stream.tokens ++ [last]) q n := by
  obtain ⟨⟨p, ts₁⟩, h₁, h⟩ := bind_eq_ok.mp h
  obtain ⟨⟨s, ts₂⟩, h₂, h⟩ := bind_eq_ok.mp h
  obtain ⟨⟨l, ts₃⟩, h₃, h⟩ := bind_eq_ok.mp h
  obtain ⟨_, h₄, he⟩ := bind_eq_ok.mp h
  cases he
  obtain ⟨ts, n, e₁, selection, hn⟩ := selection_sound hs h₁
  obtain ⟨ss, rfl, sorting⟩ := sortClause_sound h₂
  obtain ⟨ls, rfl, limiting⟩ :=
    limitClause_sound (fun t ht => hs t (by simp [e₁, ht])) h₃
  obtain rfl := finish_sound h₄
  refine ⟨n, hn, ?_⟩
  rw [e₁, List.append_nil]
  exact .mk selection sorting limiting lastKind

/-- A derived query is read at every depth that pays for it. -/
theorem queryWithin_complete {d n : Nat} {stream : TokenStream} {q : Query} {last : Token}
    (inner : ∀ t ∈ stream.tokens, t.kind ≠ .eof)
    (h : DerivesQuery (stream.tokens ++ [last]) q n) (hn : n ≤ d) :
    stream.queryWithin d = .ok q := by
  obtain ⟨body, stop⟩ := stream
  generalize whole : body ++ [last] = tokens at h
  cases h with
  | mk selection sorting limiting lastKind =>
    obtain ⟨rfl, -⟩ := List.append_inj' whole rfl
    simp only [TokenStream.queryWithin,
      selection_complete selection hn ((sorting.clausal limiting).ends _), ok_bind,
      sortClause_complete sorting limiting, limitClause_complete limiting]
    rfl

/-- **Reading is deriving.**  A token list that ends in its only end, with numerals for its numbers,
is read as a query exactly where the grammar derives that query from it at a cost of at most
`maxNestingDepth`; every other such list is refused with a syntax error. -/
theorem query_iff_derives {body : List Token} {last : Token} (lastKind : last.kind = .eof)
    (inner : ∀ t ∈ body, t.kind ≠ .eof) (shaped : ∀ t ∈ body, Shaped t) :
    ∃ stream, TokenStream.ofTokens? (body ++ [last]) = some stream ∧
      (∀ q, stream.query = .ok q ↔
        ∃ n, n ≤ maxNestingDepth ∧ DerivesQuery (body ++ [last]) q n) ∧
      ((¬ ∃ q n, n ≤ maxNestingDepth ∧ DerivesQuery (body ++ [last]) q n) →
        ∃ e, stream.query = .error e ∧
          (Problem.syntactic e).place? = some (.syntactic, e.position)) := by
  have iff : ∀ q, TokenStream.query ⟨body, last.position⟩ = .ok q ↔
      ∃ n, n ≤ maxNestingDepth ∧ DerivesQuery (body ++ [last]) q n :=
    fun q => ⟨queryWithin_sound shaped lastKind, fun ⟨_, hn, h⟩ => queryWithin_complete inner h hn⟩
  refine ⟨_, ofTokens?_closed lastKind inner, iff, fun none => ?_⟩
  obtain ⟨e, he⟩ := eq_error_of_forall_ne_ok fun q hq => none ⟨q, (iff q).mp hq⟩
  exact ⟨e, he, rfl⟩

/-- `not x == 1 | limit 2` is read as the query that the grammar derives from it. -/
theorem query_iff_derives_negation :
    let body : List Token :=
      [⟨.keyword .not, .ofString "not", 0⟩, ⟨.identifier, .ofString "x", 4⟩,
        ⟨.comparison .equal, .ofString "==", 6⟩, ⟨.integer, .ofString "1", 9⟩,
        ⟨.pipe, .ofString "|", 11⟩, ⟨.keyword .limit, .ofString "limit", 13⟩,
        ⟨.integer, .ofString "2", 19⟩]
    let tree : Expr := .negation 0 <|
      .comparison .equal 6 (.property [.ofString "x"] 4) (.constant (.integer (.ofNat 1)) 9)
    (∀ t ∈ body, t.kind ≠ .eof) ∧ (∀ t ∈ body, Shaped t) ∧
      ∃ stream, TokenStream.ofTokens? (body ++ [⟨.eof, [], 20⟩]) = some stream ∧
        stream.query = .ok ⟨some tree, none, some 2⟩ := by
  intro body tree
  have inner : ∀ t ∈ body, t.kind ≠ .eof := by decide
  have shaped : ∀ t ∈ body, Shaped t := by
    have number : ∀ t : Token, t.kind = .integer → t.value.IsNumeral → Shaped t :=
      fun t hk hv => ⟨fun _ => hv, fun h => by rw [hk] at h; cases h⟩
    have other : ∀ t : Token, t.kind ≠ .integer → t.kind ≠ .decimal → Shaped t :=
      fun t h₁ h₂ => ⟨fun h => absurd h h₁, fun h => absurd h h₂⟩
    simp only [body, List.forall_mem_cons]
    exact ⟨other _ (by decide) (by decide), other _ (by decide) (by decide),
      other _ (by decide) (by decide), number _ rfl (by decide), other _ (by decide) (by decide),
      other _ (by decide) (by decide), number _ rfl (by decide), by simp⟩
  have side : Derives .comparison (body.extract 1 4) _ (max 0 0) :=
    .comparison (.path rfl .nil) rfl (.literal (.integer rfl (by decide) (by decide)))
  have selection : Derives .disjunction (body.take 4) tree 1 :=
    .ofUnary (.negation rfl (.plain side))
  have derived : DerivesQuery (body ++ [⟨.eof, [], 20⟩]) ⟨some tree, none, some 2⟩ 1 :=
    .mk (.some selection) .missing (.clause rfl rfl rfl (by decide) (by decide) (by decide)) rfl
  obtain ⟨stream, hs, iff, -⟩ := @query_iff_derives body ⟨.eof, [], 20⟩ rfl inner shaped
  exact ⟨inner, shaped, stream, hs, (iff _).mpr ⟨1, by decide, derived⟩⟩

end PhotoQuery.Grammar
