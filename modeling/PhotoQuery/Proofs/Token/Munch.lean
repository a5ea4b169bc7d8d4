import PhotoQuery.Proofs.Token.Lexeme

/-!
# Token — longest lexemes

A run (`Run`) goes through a source from left to right, over blanks and longest lexemes.  If it
reaches the end, its tokens are the source's (`MaximalMunch`); if it reaches a unit that is not
blank and where no lexeme starts, there is no way on (`StopsAt`).  Every source has exactly one of
the two, and `tokenize` finds it.

Where the tokens stand, what they cover and what is left between them follows from the run.
-/

namespace PhotoQuery

open Text

/-- Blanks and longest lexemes lead from a place in a source to another one, each place given by
its offset and the text behind it. -/
inductive Run : Nat → Text → List Token → Nat → Text → Prop where
  | refl (position : Nat) (text : Text) : Run position text [] position text
  | blank {position stop : Nat} {u : CodeUnit} {rest left : Text} {tokens : List Token}
      (hu : isBlank u) (h : Run (position + 1) rest tokens stop left) :
      Run position (u :: rest) tokens stop left
  | lexeme {position stop : Nat} {kind : TokenKind} {value text rest left : Text}
      {tokens : List Token} (hl : Longest kind value text rest)
      (h : Run (position + text.length) rest tokens stop left) :
      Run position (text ++ rest) (⟨kind, value, position⟩ :: tokens) stop left

/-- Longest lexemes with blanks between them make up the source, and the tokens are theirs. -/
def MaximalMunch (source : Text) (tokens : List Token) : Prop :=
  ∃ body, Run 0 source body source.length [] ∧ tokens = body ++ [⟨.eof, [], source.length⟩]

/-- Behind longest lexemes with blanks between them, the source has a unit that is not blank, and
no lexeme starts there. -/
def StopsAt (source : Text) (e : Located LexicalError) : Prop :=
  ∃ body u rest, Run 0 source body e.position (u :: rest) ∧ isBlank u = false ∧
    Stuck u rest e.cause

/-! ### One step -/

theorem not_isBlank_of_isQuote {u : CodeUnit} (h : isQuote u) : isBlank u = false := by
  simp only [isQuote, Bool.or_eq_true, decide_eq_true_eq] at h
  rcases h with rfl | rfl <;> decide

theorem not_isQuote_of_isWordPart {u : CodeUnit} (h : isWordPart u) : isQuote u = false := by
  rw [Bool.eq_false_iff]
  intro hq
  simp only [isQuote, Bool.or_eq_true, decide_eq_true_eq] at hq
  rcases hq with rfl | rfl <;> exact absurd h (by decide)

/-- Only a string has blanks or quotes in it. -/
theorem Spells.solid {kind : TokenKind} {value text : Text} (h : Spells kind value text)
    (hk : kind ≠ .string) : ∀ u ∈ text, isBlank u = false ∧ isQuote u = false := by
  have part : ∀ {u : CodeUnit}, isWordPart u → isBlank u = false ∧ isQuote u = false :=
    fun hu => ⟨not_isBlank_of_isWordPart hu, not_isQuote_of_isWordPart hu⟩
  have digit : ∀ {u : CodeUnit}, isDigit u → isBlank u = false ∧ isQuote u = false :=
    fun hu => part (isWordPart_iff.mpr (.inr hu))
  cases h with
  | @mark kind c hc =>
    have solid : ∀ m ∈ marks, isBlank (unit m.2) = false ∧ isQuote (unit m.2) = false := by decide
    simpa using solid (kind, c) hc
  | symbol op =>
    have solid : (ofString op.symbol).all fun u => !isBlank u && !isQuote u := by
      cases op <;> decide
    simpa using solid
  | keyword h | identifier h => exact fun u hu => part (h.parts u hu)
  | integer h => exact fun u hu => digit (h.2 u hu)
  | decimal h =>
    obtain ⟨whole, fraction, hw, hf, rfl⟩ := h
    intro u hu
    rcases List.mem_append.mp hu with hu | hu
    · exact digit (hw.2 u hu)
    · rcases List.mem_cons.mp hu with rfl | hu
      · decide
      · exact digit (hf.2 u hu)
  | string => exact absurd rfl hk

/-- A string token covers two like quotes and what is between them. -/
theorem Spells.string_inv {value text : Text} (h : Spells .string value text) :
    ∃ quote body, isQuote quote ∧ StringBody quote body value ∧
      text = quote :: body ++ [quote] := by
  cases h with
  | mark hc => simp [marks] at hc
  | @string quote body _ hq hb => exact ⟨quote, body, hq, hb, rfl⟩

theorem Spells.keyword_inv {k : Keyword} {value text : Text} (h : Spells (.keyword k) value text) :
    text.lower = ofString k.spelling := by
  cases h with
  | mark hc => simp [marks] at hc
  | keyword _ hk => exact hk

theorem Spells.comparison_inv {op : Comparison} {value text : Text}
    (h : Spells (.comparison op) value text) : text = ofString op.symbol := by
  cases h with
  | mark hc => simp [marks] at hc
  | symbol => rfl

/-- The end is no lexeme, so no token of a source is an end but the last. -/
theorem Spells.kind_ne_eof {kind : TokenKind} {value text : Text} (h : Spells kind value text) :
    kind ≠ .eof := by
  cases h with
  | mark hc => rintro rfl; simp [marks] at hc
  | _ => simp

/-- No lexeme starts with a blank, so going over blanks first loses none. -/
theorem Spells.head {kind : TokenKind} {value rest : Text} {u : CodeUnit}
    (h : Spells kind value (u :: rest)) : isBlank u = false := by
  by_cases hk : kind = .string
  · subst hk
    obtain ⟨quote, body, hq, -, heq⟩ := h.string_inv
    obtain ⟨rfl, -⟩ := List.cons.inj heq
    exact not_isBlank_of_isQuote hq
  · exact (h.solid hk u (by simp)).1

/-- A longest lexeme is found where it starts. -/
theorem Longest.found {kind : TokenKind} {value text rest : Text}
    (h : Longest kind value text rest) : ∃ u tail, text = u :: tail ∧ isBlank u = false ∧
      lexeme u (tail ++ rest) = .ok ⟨kind, value, text.length⟩ := by
  obtain ⟨u, tail, rfl⟩ := List.exists_cons_of_ne_nil h.spells.ne_nil
  have read : lexeme u (tail ++ rest) = .ok ⟨kind, value, (u :: tail).length⟩ :=
    lexeme_eq_ok_iff.mpr ⟨u :: tail, rest, rfl, rfl, h⟩
  exact ⟨u, tail, rfl, h.spells.head, read⟩

namespace Scan

theorem ofTextAt_blank {u : CodeUnit} (h : isBlank u) (position : Nat) (rest : Text) :
    ofTextAt position (u :: rest) = ofTextAt (position + 1) rest := by
  rw [ofTextAt.eq_def]
  exact if_pos h

theorem ofTextAt_longest {kind : TokenKind} {value text rest : Text}
    (h : Longest kind value text rest) (position : Nat) :
    ofTextAt position (text ++ rest) =
      cons ⟨kind, value, position⟩ (ofTextAt (position + text.length) rest) := by
  obtain ⟨u, tail, rfl, hu, read⟩ := h.found
  rw [List.cons_append, ofTextAt.eq_def]
  simp only [hu, read, Bool.false_eq_true, if_false, List.length_cons, Nat.add_sub_cancel,
    List.drop_left]
  rw [Nat.add_assoc, Nat.add_comm 1]

theorem ofTextAt_stuck {u : CodeUnit} {rest : Text} {cause : LexicalError} (hu : isBlank u = false)
    (h : Stuck u rest cause) (position : Nat) :
    ofTextAt position (u :: rest) = ⟨[], some ⟨position, cause⟩⟩ := by
  rw [ofTextAt.eq_def]
  simp only [hu, lexeme_eq_error_iff.mpr h, Bool.false_eq_true, if_false]

end Scan

/-! ### Whole runs -/

/-- A run moves on by as many units as it has taken from the text. -/
theorem Run.stop_eq {position stop : Nat} {text left : Text} {tokens : List Token}
    (h : Run position text tokens stop left) : stop + left.length = position + text.length := by
  induction h with
  | refl => rfl
  | blank _ _ ih => rw [ih, List.length_cons]; omega
  | lexeme _ _ ih => rw [ih, List.length_append]; omega

/-- Reading goes through a run and then on from its end. -/
theorem Run.scan {position stop : Nat} {text left : Text} {tokens : List Token}
    (h : Run position text tokens stop left) :
    Scan.ofTextAt position text =
      ⟨tokens ++ (Scan.ofTextAt stop left).tokens, (Scan.ofTextAt stop left).error?⟩ := by
  induction h with
  | refl => rfl
  | blank hu _ ih => rw [Scan.ofTextAt_blank hu, ih]
  | lexeme hl _ ih => rw [Scan.ofTextAt_longest hl, ih]; rfl

/-- A run goes on to the end of the text, or to where no lexeme starts. -/
theorem exists_run (position : Nat) (text : Text) :
    ∃ tokens stop left, Run position text tokens stop left ∧
      (left = [] ∨ ∃ u rest cause, left = u :: rest ∧ isBlank u = false ∧ Stuck u rest cause) := by
  fun_induction Scan.ofTextAt position text with
  -- on the calls of the scanner: at the end, at a blank, at an error, at a lexeme
  | case1 position => exact ⟨[], position, [], .refl _ _, .inl rfl⟩
  | case2 position u rest hu ih =>
    obtain ⟨tokens, stop, left, run, final⟩ := ih
    exact ⟨tokens, stop, left, .blank hu run, final⟩
  | case3 position u rest hu cause read =>
    exact ⟨[], position, u :: rest, .refl _ _,
      .inr ⟨u, rest, cause, rfl, by simpa using hu, lexeme_eq_error_iff.mp read⟩⟩
  | case4 position u rest hu l read ih =>
    obtain ⟨text, tail, heq, hl, longest⟩ := lexeme_eq_ok_iff.mp read
    obtain ⟨v, inner, rfl, -⟩ := longest.found
    obtain ⟨rfl, rfl⟩ : u = v ∧ rest = inner ++ tail := List.cons.inj heq
    obtain ⟨tokens, stop, left, run, final⟩ := ih
    have length : l.length - 1 = inner.length := by rw [← hl]; rfl
    rw [length, List.drop_left, Nat.add_assoc, Nat.add_comm 1] at run
    exact ⟨_, stop, left, .lexeme longest run, final⟩

theorem tokenize_of_run {source : Text} {body : List Token}
    (h : Run 0 source body source.length []) :
    tokenize source = .ok (body ++ [⟨.eof, [], source.length⟩]) := by
  rw [tokenize, Scan.ofText, h.scan, Scan.ofTextAt.eq_def]
  rfl

theorem tokenize_of_stopsAt {source : Text} {e : Located LexicalError} (h : StopsAt source e) :
    tokenize source = .error e := by
  obtain ⟨body, u, rest, run, hu, stuck⟩ := h
  rw [tokenize, Scan.ofText, run.scan, Scan.ofTextAt_stuck hu stuck]
  rfl

/-- Every source is made up of longest lexemes, or there is a place in it where no lexeme starts. -/
theorem maximalMunch_or_stopsAt (source : Text) :
    (∃ tokens, MaximalMunch source tokens) ∨ ∃ e, StopsAt source e := by
  obtain ⟨body, stop, left, run, rfl | ⟨u, rest, cause, rfl, hu, stuck⟩⟩ := exists_run 0 source
  · have hs : stop = source.length := by simpa using run.stop_eq
    subst hs
    exact .inl ⟨_, body, run, rfl⟩
  · exact .inr ⟨⟨stop, cause⟩, body, u, rest, run, hu, stuck⟩

/-- The tokens of a source are those of its longest lexemes. -/
theorem tokenize_eq_ok {source : Text} {tokens : List Token} :
    tokenize source = .ok tokens ↔ MaximalMunch source tokens := by
  constructor
  · intro h
    rcases maximalMunch_or_stopsAt source with ⟨found, body, run, rfl⟩ | ⟨e, stops⟩
    · rw [tokenize_of_run run] at h
      cases h
      exact ⟨body, run, rfl⟩
    · rw [tokenize_of_stopsAt stops] at h
      cases h
  · rintro ⟨body, run, rfl⟩
    exact tokenize_of_run run

/-- A source has an error exactly where longest lexemes lead to no other. -/
theorem tokenize_eq_error {source : Text} {e : Located LexicalError} :
    tokenize source = .error e ↔ StopsAt source e := by
  constructor
  · intro h
    rcases maximalMunch_or_stopsAt source with ⟨found, body, run, rfl⟩ | ⟨e', stops⟩
    · rw [tokenize_of_run run] at h
      cases h
    · rw [tokenize_of_stopsAt stops] at h
      cases h
      exact stops
  · exact tokenize_of_stopsAt

end PhotoQuery
