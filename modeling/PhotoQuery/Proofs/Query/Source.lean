import PhotoQuery.Proofs.Grammar.RoundTrip
import PhotoQuery.Proofs.Token.Layout
import PhotoQuery.Query.Compiled

/-!
# Query — from sources to queries

A source that a run leads through has the tokens of the run, and these are what the grammar reads:
none of them is an end, the numbers among them are numerals, and they start inside the source.  A
source that no run leads through has no tokens and is no query.
-/

namespace PhotoQuery

open Outcome Grammar

/-! ### The tokens of a run -/

/-- The numbers among the lexemes are numerals. -/
theorem Spells.shaped {kind : TokenKind} {value text : Text} (h : Spells kind value text)
    (position : Nat) : Shaped ⟨kind, value, position⟩ := by
  cases h with
  | integer hn => exact ⟨fun _ => hn, by simp⟩
  | decimal hf => exact ⟨by simp, fun _ => hf⟩
  | mark hc =>
    constructor
    · rintro rfl
      simp [marks] at hc
    · rintro rfl
      simp [marks] at hc
  | _ => exact ⟨by simp, by simp⟩

/-- Every token of a run is a lexeme that ends within it. -/
theorem Run.spells {position stop : Nat} {text left : Text} {tokens : List Token}
    (h : Run position text tokens stop left) :
    ∀ t ∈ tokens, ∃ covered,
      Spells t.kind t.value covered ∧ t.position + covered.length ≤ stop := by
  induction h with
  | refl => exact List.forall_mem_nil _
  | blank _ _ ih => exact ih
  | lexeme hl run ih => exact List.forall_mem_cons.mpr ⟨⟨_, hl.spells, run.le_stop⟩, ih⟩

section

variable {position stop : Nat} {text left : Text} {tokens : List Token}

/-- No token of a run is an end. -/
theorem Run.kind_ne_eof (h : Run position text tokens stop left) : ∀ t ∈ tokens, t.kind ≠ .eof := by
  intro t ht
  obtain ⟨covered, spells, -⟩ := h.spells t ht
  exact spells.kind_ne_eof

theorem Run.shaped (h : Run position text tokens stop left) : ∀ t ∈ tokens, Shaped t := by
  intro t ht
  obtain ⟨covered, spells, -⟩ := h.spells t ht
  exact spells.shaped t.position

theorem Run.position_lt (h : Run position text tokens stop left) :
    ∀ t ∈ tokens, t.position < stop := by
  intro t ht
  obtain ⟨covered, spells, le⟩ := h.spells t ht
  have := List.length_pos_iff.mpr spells.ne_nil
  omega

end

/-! ### Streams and queries -/

/-- The end of a source, as a token. -/
def Token.endOf (source : Text) : Token := ⟨.eof, [], source.length⟩

section

variable {source : Text} {body : List Token}

/-- What a run leads through is a stream, with all of its tokens. -/
theorem Run.ofTokens? (h : Run 0 source body source.length []) :
    TokenStream.ofTokens? (body ++ [.endOf source]) = some ⟨body, source.length⟩ :=
  ofTokens?_closed rfl h.kind_ne_eof

/-- What a run leads through is the stream of its tokens. -/
theorem Run.ofSource (h : Run 0 source body source.length []) :
    TokenStream.ofSource source = .ok ⟨body, source.length⟩ := by
  rw [TokenStream.ofSource, tokenize_of_run h, map_ok, takeWhile_closed rfl h.kind_ne_eof]

/-- What a run leads through is read as its tokens are. -/
theorem Run.query (h : Run 0 source body source.length []) :
    Query.ofSource source =
      (TokenStream.query ⟨body, source.length⟩).mapError .syntactic := by
  rw [Query.ofSource, h.ofSource, mapError_ok, ok_bind]

/-- A source that is a query has tokens that derive it. -/
theorem Query.exists_run {q : Query} (h : Query.ofSource source = .ok q) :
    ∃ body, Run 0 source body source.length [] ∧
      TokenStream.query ⟨body, source.length⟩ = .ok q := by
  rcases maximalMunch_or_stopsAt source with ⟨tokens, body, run, -⟩ | ⟨e, stops⟩
  · rw [run.query] at h
    exact ⟨body, run, mapError_eq_ok.mp h⟩
  · rw [Query.ofSource, TokenStream.ofSource, tokenize_of_stopsAt stops] at h
    cases h

/-- A source is the query that its tokens derive. -/
theorem Run.ofSource_eq_ok (h : Run 0 source body source.length []) {q : Query} :
    Query.ofSource source = .ok q ↔
      ∃ n, n ≤ maxNestingDepth ∧ DerivesQuery (body ++ [.endOf source]) q n := by
  rw [h.query, mapError_eq_ok]
  exact ⟨queryWithin_sound h.shaped rfl,
    fun ⟨_, hn, derives⟩ => queryWithin_complete h.kind_ne_eof derives hn⟩

/-- A source that is a query has tokens that derive it, within the nesting allowed. -/
theorem Query.exists_derives {q : Query} (h : Query.ofSource source = .ok q) :
    ∃ body n, Run 0 source body source.length [] ∧ n ≤ maxNestingDepth ∧
      DerivesQuery (body ++ [.endOf source]) q n := by
  obtain ⟨body, run, -⟩ := Query.exists_run h
  obtain ⟨n, hn, derives⟩ := run.ofSource_eq_ok.mp h
  exact ⟨body, n, run, hn, derives⟩

/-! ### Predicates alone -/

/-- A query without clauses is derived from nothing but what it selects. -/
theorem Grammar.DerivesQuery.selection {last : Token} {predicate : Option Expr} {n : Nat}
    (h : DerivesQuery (body ++ [last]) ⟨predicate, none, none⟩ n) :
    DerivesSelection body predicate n := by
  generalize whole : body ++ [last] = tokens at h
  cases h with
  | mk selection sorting limiting =>
    cases sorting
    cases limiting
    obtain ⟨rfl, -⟩ := List.append_inj' whole rfl
    rwa [List.append_nil, List.append_nil]

/-- A query of a predicate alone is derived from nothing but the predicate. -/
theorem Grammar.DerivesQuery.predicate {last : Token} {e : Expr} {n : Nat}
    (h : DerivesQuery (body ++ [last]) ⟨some e, none, none⟩ n) : Derives .disjunction body e n := by
  cases h.selection with
  | some derives => exact derives

/-- A disjunction with an end behind it is a query of it alone. -/
theorem Grammar.Derives.query {last : Token} {e : Expr} {n : Nat}
    (h : Derives .disjunction body e n) (lastKind : last.kind = .eof) :
    DerivesQuery (body ++ [last]) ⟨some e, none, none⟩ n := by
  have query := DerivesQuery.mk (.some h) .missing .missing lastKind
  rwa [List.append_nil, List.append_nil] at query

/-- A source with the words of a disjunction is a query of it alone, up to positions. -/
theorem Reads.ofSource {words : List Word} {e : Expr} {n : Nat} (h : Reads .disjunction words e n)
    (run : Run 0 source body source.length []) (same : body.map Token.word = words)
    (hn : n ≤ maxNestingDepth) :
    ∃ e', Query.ofSource source = .ok ⟨some e', none, none⟩ ∧ e'.erase = e := by
  obtain ⟨e', derives, erased⟩ := h body same
  exact ⟨e', run.ofSource_eq_ok.mpr ⟨n, hn, derives.query rfl⟩, erased⟩

end

end PhotoQuery
