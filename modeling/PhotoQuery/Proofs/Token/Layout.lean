import PhotoQuery.Proofs.Token.Munch

/-!
# Token — layout

What a token covers is not in the token: a string token has the denoted text as its value, and its
source text is longer.  A piece is a token with the text that it covers, and the pieces of a source
lie in it in order, one behind the other, with nothing but blanks between them.

* `Longest.bounded`: what may not follow a longest lexeme of a kind.
* `Run.layout`: the tokens of a run, as pieces, fill the part of the source that the run covers.
* `tokenize_longest`: what `tokenize` returns, and when and how it fails.
-/

namespace PhotoQuery

open Text

/-- A token and the source text that it covers. -/
structure Piece where
  token : Token
  text : Text

/-- The offset behind the text that the token covers. -/
def Piece.stop (p : Piece) : Nat := p.token.position + p.text.length

/-- The text behind a lexeme of the kind does not go on with it: no word part follows a word, no
digit a numeral, no fraction an integer, and no `=` one of the two symbols that it would
lengthen. -/
def Bounded : TokenKind → Text → Prop
  | .identifier, rest | .keyword _, rest => ∀ u ∈ rest.head?, isWordPart u = false
  | .integer, rest => (∀ u ∈ rest.head?, isDigit u = false) ∧
      ∀ u tail, rest = unit '.' :: u :: tail → isDigit u = false
  | .decimal, rest => ∀ u ∈ rest.head?, isDigit u = false
  | .comparison .less, rest | .comparison .greater, rest => rest.head? ≠ some (unit '=')
  | _, _ => True

/-- The tokens of a source, as they stand in it. -/
structure WellTokenized (source : Text) (tokens : List Token) (pieces : List Piece) : Prop where
  tokens_eq : tokens = pieces.map Piece.token ++ [⟨.eof, [], source.length⟩]
  kind_ne_eof : ∀ p ∈ pieces, p.token.kind ≠ .eof
  increasing : tokens.Pairwise fun a b => a.position < b.position
  disjoint : pieces.Pairwise fun p q => p.stop ≤ q.token.position
  stands : ∀ p ∈ pieces, p.text <+: source.drop p.token.position
  plain : ∀ p ∈ pieces, p.token.kind ≠ .string →
    p.token.value = p.text ∧ ∀ u ∈ p.text, isBlank u = false
  string : ∀ p ∈ pieces, p.token.kind = .string → ∃ quote body, isQuote quote ∧
    StringBody quote body p.token.value ∧ p.text = quote :: body ++ [quote]
  gaps : ∀ i u, source[i]? = some u → (∀ p ∈ pieces, i < p.token.position ∨ p.stop ≤ i) →
    isBlank u
  bounded : ∀ p ∈ pieces, Bounded p.token.kind (source.drop p.stop)

/-! ### What follows a lexeme -/

/-- A longest lexeme with something more of the text is no lexeme. -/
theorem Longest.not_longer {kind kind' : TokenKind} {value value' text more tail : Text}
    (h : Longest kind value text (more ++ tail)) (hm : more ≠ []) :
    ¬ Spells kind' value' (text ++ more) := by
  intro hs
  have le := h.length_le hs ⟨tail, List.append_assoc ..⟩
  have pos := List.length_pos_iff.mpr hm
  rw [List.length_append] at le
  omega

/-- A word goes on with any word part. -/
theorem Text.IsWord.append {word : Text} (h : word.IsWord) {u : CodeUnit} (hu : isWordPart u) :
    (word ++ [u]).IsWord := by
  obtain ⟨v, rest, rfl, hv, hr⟩ := h
  refine ⟨v, rest ++ [u], rfl, hv, ?_⟩
  intro w hw
  rcases List.mem_append.mp hw with hw | hw
  · exact hr w hw
  · rwa [List.mem_singleton.mp hw]

theorem Text.isNumeral_singleton {u : CodeUnit} (h : isDigit u) : IsNumeral [u] :=
  ⟨by simp, by simpa using h⟩

/-- A lexeme that is not a string is its own value. -/
theorem Spells.value_eq {kind : TokenKind} {value text : Text} (h : Spells kind value text)
    (hk : kind ≠ .string) : value = text := by
  cases h with
  | string => exact absurd rfl hk
  | _ => rfl

/-- What follows a longest lexeme does not lengthen it. -/
theorem Longest.bounded {kind : TokenKind} {value text rest : Text}
    (h : Longest kind value text rest) : Bounded kind rest := by
  have word : text.IsWord → ∀ u ∈ rest.head?, isWordPart u = false := by
    intro hw u hu
    obtain ⟨tail, rfl⟩ := List.head?_eq_some_iff.mp hu
    rw [Bool.eq_false_iff]
    intro part
    exact @Longest.not_longer _ _ _ _ text [u] tail h (by simp) (.word (hw.append part))
  cases h.spells with
  | @mark kind c hc =>
    simp only [marks, List.mem_cons, Prod.mk.injEq, List.not_mem_nil, or_false] at hc
    rcases hc with ⟨rfl, rfl⟩ | ⟨rfl, rfl⟩ | ⟨rfl, rfl⟩ | ⟨rfl, rfl⟩ | ⟨rfl, rfl⟩ <;> trivial
  | symbol op =>
    -- an `=` behind the symbol would make it a longer one
    have alone : ∀ op' : Comparison, ofString op'.symbol = ofString op.symbol ++ [unit '='] →
        rest.head? ≠ some (unit '=') := by
      intro op' symbol hr
      obtain ⟨tail, rfl⟩ := List.head?_eq_some_iff.mp hr
      refine @Longest.not_longer _ (.comparison op') _ (ofString op'.symbol) _ [unit '='] tail h
        (by simp) ?_
      rw [← symbol]
      exact .symbol op'
    cases op with
    | less => exact alone .lessOrEqual rfl
    | greater => exact alone .greaterOrEqual rfl
    | _ => trivial
  | keyword hw | identifier hw => exact word hw
  | integer hn =>
    constructor
    · intro u hu
      obtain ⟨tail, rfl⟩ := List.head?_eq_some_iff.mp hu
      rw [Bool.eq_false_iff]
      intro digit
      exact @Longest.not_longer _ _ _ _ _ [u] tail h (by simp)
        (.integer (hn.append (isNumeral_singleton digit)))
    · rintro u tail rfl
      rw [Bool.eq_false_iff]
      intro digit
      exact @Longest.not_longer _ _ _ _ _ [unit '.', u] tail h (by simp)
        (.decimal ⟨_, [u], hn, isNumeral_singleton digit, rfl⟩)
  | decimal hf =>
    obtain ⟨whole, fraction, hw, hf, rfl⟩ := hf
    intro u hu
    obtain ⟨tail, rfl⟩ := List.head?_eq_some_iff.mp hu
    rw [Bool.eq_false_iff]
    intro digit
    refine @Longest.not_longer _ _ _ _ _ [u] tail h (by simp) (.decimal ⟨whole, fraction ++ [u],
      hw, hf.append (isNumeral_singleton digit), ?_⟩)
    rw [List.append_assoc, List.cons_append]
  | string => trivial

/-! ### Runs fill the source -/

theorem Run.le_stop {position stop : Nat} {text left : Text} {tokens : List Token}
    (h : Run position text tokens stop left) : position ≤ stop := by
  induction h with
  | refl => exact Nat.le_refl _
  | blank _ _ ih => omega
  | lexeme _ _ ih => omega

/-- The pieces lie in order in the source between two offsets, each a longest lexeme, and all else
between the offsets is blank. -/
structure Layout (source : Text) (start stop : Nat) (pieces : List Piece) : Prop where
  disjoint : pieces.Pairwise fun p q => p.stop ≤ q.token.position
  within : ∀ p ∈ pieces, start ≤ p.token.position ∧ p.stop ≤ stop
  longest : ∀ p ∈ pieces, ∃ rest, source.drop p.token.position = p.text ++ rest ∧
    Longest p.token.kind p.token.value p.text rest
  gaps : ∀ i u, start ≤ i → i < stop → source[i]? = some u →
    (∀ p ∈ pieces, i < p.token.position ∨ p.stop ≤ i) → isBlank u

/-- The tokens of a run, as pieces, fill the part of the source that it leads through. -/
theorem Run.layout {source : Text} {position stop : Nat} {text left : Text} {tokens : List Token}
    (h : Run position text tokens stop left) (hs : source.drop position = text) :
    ∃ pieces : List Piece, tokens = pieces.map Piece.token ∧
      Layout source position stop pieces := by
  induction h with
  | refl position text =>
    refine ⟨[], rfl, .nil, by simp, by simp, ?_⟩
    intro i u hp hi
    omega
  | @blank position stop u rest left tokens hu run ih =>
    have next : source.drop (position + 1) = rest := by
      rw [← List.drop_drop, hs]
      rfl
    have here : source[position]? = some u := by
      rw [← List.head?_drop, hs]
      rfl
    obtain ⟨pieces, rfl, disjoint, within, longest, gaps⟩ := ih next
    refine ⟨pieces, rfl, disjoint, ?_, longest, ?_⟩
    · intro p hp
      have := within p hp
      omega
    · intro i v hi hstop hv outside
      by_cases first : i = position
      · subst first
        rw [here] at hv
        cases hv
        exact hu
      · exact gaps i v (by omega) hstop hv outside
  | @lexeme position stop kind value text rest left tokens hl run ih =>
    have next : source.drop (position + text.length) = rest := by
      rw [← List.drop_drop, hs, List.drop_left]
    have le := run.le_stop
    obtain ⟨pieces, rfl, disjoint, within, longest, gaps⟩ := ih next
    -- the run goes on behind the lexeme, and every other piece lies there
    refine ⟨⟨⟨kind, value, position⟩, text⟩ :: pieces, rfl, ?_, ?_, ?_, ?_⟩
    · exact List.pairwise_cons.mpr ⟨fun q hq => (within q hq).1, disjoint⟩
    · rw [List.forall_mem_cons]
      refine ⟨⟨Nat.le_refl _, le⟩, ?_⟩
      intro p hp
      have := within p hp
      omega
    · rw [List.forall_mem_cons]
      exact ⟨⟨rest, hs, hl⟩, longest⟩
    · intro i v hi hstop hv outside
      rw [List.forall_mem_cons] at outside
      obtain ⟨first, others⟩ := outside
      simp only [Piece.stop] at first
      exact gaps i v (by omega) hstop hv others

/-- What is left at the end of a run is the rest of the source. -/
theorem Run.drop_stop {source : Text} {position stop : Nat} {text left : Text}
    {tokens : List Token} (h : Run position text tokens stop left)
    (hs : source.drop position = text) : source.drop stop = left := by
  induction h with
  | refl => exact hs
  | blank _ _ ih =>
    apply ih
    rw [← List.drop_drop, hs]
    rfl
  | lexeme _ _ ih =>
    apply ih
    rw [← List.drop_drop, hs, List.drop_left]

/-! ### The tokens of a source -/

/-- Pieces that fill a whole source are its tokens as they should be. -/
theorem Layout.wellTokenized {source : Text} {pieces : List Piece}
    (h : Layout source 0 source.length pieces) :
    WellTokenized source (pieces.map Piece.token ++ [⟨.eof, [], source.length⟩]) pieces where
  tokens_eq := rfl
  kind_ne_eof := by
    intro p hp
    obtain ⟨rest, -, longest⟩ := h.longest p hp
    exact longest.spells.kind_ne_eof
  increasing := by
    -- lexemes are not empty, so pieces that are disjoint start one behind the other
    have start_lt_stop : ∀ p ∈ pieces, p.token.position < p.stop := by
      intro p hp
      obtain ⟨rest, -, longest⟩ := h.longest p hp
      have := List.length_pos_iff.mpr longest.spells.ne_nil
      simp only [Piece.stop]
      omega
    rw [List.pairwise_append]
    refine ⟨?_, List.pairwise_singleton .., ?_⟩
    · rw [List.pairwise_map]
      refine h.disjoint.imp_of_mem ?_
      intro p q hp _ le
      exact Nat.lt_of_lt_of_le (start_lt_stop p hp) le
    · intro a ha b hb
      obtain ⟨p, hp, rfl⟩ := List.mem_map.mp ha
      rw [List.mem_singleton.mp hb]
      exact Nat.lt_of_lt_of_le (start_lt_stop p hp) (h.within p hp).2
  disjoint := h.disjoint
  stands := by
    intro p hp
    obtain ⟨rest, here, -⟩ := h.longest p hp
    exact ⟨rest, here.symm⟩
  plain := by
    intro p hp hk
    obtain ⟨rest, -, longest⟩ := h.longest p hp
    exact ⟨longest.spells.value_eq hk, fun u hu => (longest.spells.solid hk u hu).1⟩
  string := by
    intro p hp hk
    obtain ⟨rest, -, longest⟩ := h.longest p hp
    have spells := longest.spells
    rw [hk] at spells
    exact spells.string_inv
  gaps := by
    intro i u hu outside
    exact h.gaps i u (Nat.zero_le i) (List.getElem?_eq_some_iff.mp hu).1 hu outside
  bounded := by
    intro p hp
    obtain ⟨rest, here, longest⟩ := h.longest p hp
    rw [Piece.stop, ← List.drop_drop, here, List.drop_left]
    exact longest.bounded

/-- The longest lexemes of a source, as pieces, are its tokens as they should be. -/
theorem MaximalMunch.wellTokenized {source : Text} {tokens : List Token}
    (h : MaximalMunch source tokens) : ∃ pieces, WellTokenized source tokens pieces := by
  obtain ⟨body, run, rfl⟩ := h
  obtain ⟨pieces, rfl, layout⟩ := run.layout rfl
  exact ⟨pieces, layout.wellTokenized⟩

/-- The error is about the unit that it is located at, and names it unless that unit is a quote. -/
theorem StopsAt.reason {source : Text} {e : Located LexicalError} (h : StopsAt source e) :
    ∃ u, source[e.position]? = some u ∧ isBlank u = false ∧ e.cause.reason =
      if isQuote u then ofString "Unterminated string"
      else ofString "Unexpected character " ++ quoted [u] := by
  obtain ⟨body, u, rest, run, hu, stuck⟩ := h
  refine ⟨u, ?_, hu, ?_⟩
  · rw [← List.head?_drop, run.drop_stop rfl]
    rfl
  · rw [stuck.cause]
    split <;> rfl

/-- **The tokens of a source** are its longest lexemes, and lie in it as they should; a source has
none exactly if, behind longest lexemes, no lexeme starts, and then the reason is an open string or
the unit found there. -/
theorem tokenize_longest (source : Text) :
    (∀ tokens, tokenize source = .ok tokens ↔ MaximalMunch source tokens) ∧
      (∀ tokens, tokenize source = .ok tokens → ∃ pieces, WellTokenized source tokens pieces) ∧
      (∀ e, tokenize source = .error e ↔ StopsAt source e) ∧
      ∀ e, tokenize source = .error e → ∃ u, source[e.position]? = some u ∧ isBlank u = false ∧
        e.cause.reason = if isQuote u then ofString "Unterminated string"
          else ofString "Unexpected character " ++ quoted [u] := by
  refine ⟨fun _ => tokenize_eq_ok, ?_, fun _ => tokenize_eq_error, ?_⟩
  · intro tokens h
    exact (tokenize_eq_ok.mp h).wellTokenized
  · intro e h
    exact (tokenize_eq_error.mp h).reason

example : Scan.ofText (ofString "a<=5.") =
    ⟨[⟨.identifier, ofString "a", 0⟩, ⟨.comparison .lessOrEqual, ofString "<=", 1⟩,
      ⟨.integer, ofString "5", 3⟩, ⟨.dot, ofString ".", 4⟩, ⟨.eof, [], 5⟩], none⟩ := by
  decide +kernel

end PhotoQuery
