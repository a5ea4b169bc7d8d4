import PhotoQuery.Proofs.Token.Layout

/-!
# Token — boundaries

Whether a lexeme is a longest one depends on the first two units behind it at most: it is one if and
only if the text behind it is `Bounded` for its kind (`longest_iff`).  So it stays one when the text
behind it goes on, unless that text was empty or ended in a single point.

A text is a barrier if it goes on no lexeme whatever (`Barrier`): it is empty, or starts with a unit
that no word, no number and no symbol goes on with.  Blanks and parentheses are such units.
-/

namespace PhotoQuery

open Text

/-! ### The lexeme before a boundary -/

/-- A word that does not go on is found as it stands. -/
theorem lexeme_word_bounded {word : Text} (h : word.IsWord) {u : CodeUnit} {rest tail : Text}
    (heq : u :: rest = word ++ tail) (ht : ∀ v ∈ tail.head?, isWordPart v = false) :
    lexeme u rest = .ok (.plain ((keyword? word).elim .identifier .keyword) word) := by
  have whole : (u :: rest).takeWhile isWordPart = word :=
    heq ▸ (Number.takeWhile_append h.parts ht).1
  obtain ⟨v, inner, rfl, hv, -⟩ := h
  obtain ⟨rfl, -⟩ := List.cons.inj heq
  rw [lexeme_of_isWordPart (isWordPart_iff.mpr (.inl hv)), not_isDigit_of_isWordStart hv,
    if_neg Bool.false_ne_true, wordLexeme, whole]

/-- Without a point and a digit behind it there is no fraction. -/
theorem fractionDigits_bounded {tail : Text}
    (h : ∀ u rest, tail = unit '.' :: u :: rest → isDigit u = false) :
    fractionDigits tail = [] := by
  cases tail with
  | nil => rfl
  | cons v rest =>
    rw [fractionDigits]
    split
    · rename_i point
      subst point
      cases rest with
      | nil => rfl
      | cons u rest => exact List.takeWhile_cons_of_neg (by simp [h u rest rfl])
    · rfl

/-- A numeral that goes on neither with a digit nor with a fraction is an integer. -/
theorem lexeme_integer_bounded {digits : Text} (h : digits.IsNumeral) {u : CodeUnit}
    {rest tail : Text} (heq : u :: rest = digits ++ tail) (ht : Bounded .integer tail) :
    lexeme u rest = .ok (.plain .integer digits) := by
  obtain ⟨taken, dropped⟩ := Number.takeWhile_append h.2 ht.1
  rw [lexeme_numeral h heq, heq, numberLexeme, taken, dropped, fractionDigits_bounded ht.2]
  rfl

theorem lexeme_decimal_bounded {whole fraction : Text} (hw : whole.IsNumeral)
    (hf : fraction.IsNumeral) {u : CodeUnit} {rest tail : Text}
    (heq : u :: rest = whole ++ (unit '.' :: (fraction ++ tail))) (ht : Bounded .decimal tail) :
    lexeme u rest = .ok (.plain .decimal (whole ++ unit '.' :: fraction)) := by
  have point : ∀ v ∈ (unit '.' :: (fraction ++ tail)).head?, isDigit v = false := by
    rintro v hv
    cases hv
    decide
  obtain ⟨taken, dropped⟩ := Number.takeWhile_append hw.2 point
  have digits : fractionDigits (unit '.' :: (fraction ++ tail)) = fraction := by
    rw [fractionDigits, if_pos rfl, (Number.takeWhile_append hf.2 ht).1]
  rw [lexeme_numeral hw heq, heq, numberLexeme, taken, dropped, digits, if_neg (by simp [hf.1])]

/-- Where a lexeme stands in front of a boundary, it is found. -/
theorem Spells.lexeme_bounded {kind : TokenKind} {value text : Text} (h : Spells kind value text)
    {u : CodeUnit} {rest tail : Text} (heq : u :: rest = text ++ tail) (ht : Bounded kind tail) :
    PhotoQuery.lexeme u rest = .ok ⟨kind, value, text.length⟩ := by
  cases h with
  | @mark kind c hc =>
    obtain ⟨rfl, rfl⟩ : u = unit c ∧ rest = tail := List.cons.inj heq
    exact lexeme_mark hc rest
  | symbol op =>
    refine lexeme_symbol op heq ?_
    rintro (rfl | rfl)
    · exact ht
    · exact ht
  | keyword hw hk =>
    rw [lexeme_word_bounded hw heq ht, keyword?_eq_some.mpr hk]
    rfl
  | identifier hw hk =>
    rw [lexeme_word_bounded hw heq ht, keyword?_eq_none.mpr hk]
    rfl
  | integer hn => exact lexeme_integer_bounded hn heq ht
  | decimal hf =>
    obtain ⟨whole, fraction, hw, hf, rfl⟩ := hf
    rw [List.append_assoc, List.cons_append] at heq
    exact lexeme_decimal_bounded hw hf heq ht
  | @string quote body _ hq hb =>
    obtain ⟨rfl, rfl⟩ : u = quote ∧ rest = body ++ quote :: tail := by simpa using heq
    rw [hb.lexeme hq tail, List.length_append]
    rfl

/-- **A lexeme is a longest one** exactly in front of a boundary. -/
theorem longest_iff {kind : TokenKind} {value text rest : Text} :
    Longest kind value text rest ↔ Spells kind value text ∧ Bounded kind rest := by
  refine ⟨fun h => ⟨h.spells, h.bounded⟩, ?_⟩
  rintro ⟨spells, bounded⟩
  obtain ⟨u, inner, rfl⟩ := List.exists_cons_of_ne_nil spells.ne_nil
  have read := spells.lexeme_bounded (List.cons_append ..).symm bounded
  obtain ⟨text', rest', heq, length, longest⟩ := lexeme_eq_ok_iff.mp read
  -- the longest lexeme found is as long as this one, so it is this one
  obtain ⟨rfl, rfl⟩ := List.append_inj (heq.symm.trans (List.cons_append ..).symm) length
  exact longest

/-! ### Barriers -/

/-- No lexeme goes on with the text. -/
def Barrier (text : Text) : Prop :=
  ∀ u ∈ text.head?, isWordPart u = false ∧ u ≠ unit '.' ∧ u ≠ unit '='

theorem barrier_nil : Barrier [] := by simp [Barrier]

theorem barrier_blank {u : CodeUnit} (h : isBlank u) (rest : Text) : Barrier (u :: rest) := by
  rintro v hv
  cases hv
  refine ⟨?_, ?_, ?_⟩
  · rw [Bool.eq_false_iff]
    intro part
    rw [not_isBlank_of_isWordPart part] at h
    cases h
  · rintro rfl
    exact absurd h (by decide)
  · rintro rfl
    exact absurd h (by decide)

theorem barrier_closing (rest : Text) : Barrier (unit ')' :: rest) := by
  rintro v hv
  cases hv
  decide

section

variable {rest more : Text}

theorem Barrier.not_isWordPart (h : Barrier rest) : ∀ u ∈ rest.head?, isWordPart u = false :=
  fun u hu => (h u hu).1

theorem Barrier.not_isDigit (h : Barrier rest) : ∀ u ∈ rest.head?, isDigit u = false := by
  intro u hu
  rw [Bool.eq_false_iff]
  intro digit
  have part := (h u hu).1
  rw [isWordPart_iff.mpr (.inr digit)] at part
  cases part

/-- A barrier is a boundary for lexemes of every kind. -/
theorem Barrier.bounded (h : Barrier rest) (kind : TokenKind) : Bounded kind rest := by
  have equals : rest.head? ≠ some (unit '=') := fun hr => (h _ hr).2.2 rfl
  cases kind with
  | identifier | keyword => exact h.not_isWordPart
  | integer =>
    refine ⟨h.not_isDigit, ?_⟩
    rintro u tail rfl
    exact absurd rfl (h _ rfl).2.1
  | decimal => exact h.not_isDigit
  | comparison op =>
    cases op with
    | less | greater => exact equals
    | _ => trivial
  | _ => trivial

/-- The first unit of a text behind which a barrier stands is its own, or the barrier's. -/
theorem head?_append_barrier {p : CodeUnit → Prop} (hr : ∀ u ∈ rest.head?, p u)
    (hm : ∀ u ∈ more.head?, p u) : ∀ u ∈ (rest ++ more).head?, p u := by
  cases rest with
  | nil => exact hm
  | cons v rest => exact hr

/-- A boundary stays one when the text behind it goes on with a barrier. -/
theorem Bounded.append {kind : TokenKind} (h : Bounded kind rest) (hm : Barrier more) :
    Bounded kind (rest ++ more) := by
  cases kind with
  | identifier | keyword => exact head?_append_barrier h hm.not_isWordPart
  | integer =>
    refine ⟨head?_append_barrier h.1 hm.not_isDigit, ?_⟩
    intro u tail heq
    rcases rest with _ | ⟨v, _ | ⟨w, rest⟩⟩
    · exact (hm.bounded .integer).2 u tail heq
    · have digit : more = u :: tail := (List.cons.inj heq).2
      exact hm.not_isDigit u (by rw [digit]; rfl)
    · obtain ⟨rfl, behind⟩ : v = unit '.' ∧ w :: (rest ++ more) = u :: tail := List.cons.inj heq
      obtain ⟨rfl, -⟩ := List.cons.inj behind
      exact h.2 w rest rfl
  | decimal => exact head?_append_barrier h hm.not_isDigit
  | comparison op =>
    have equals : ∀ text : Text,
        text.head? ≠ some (unit '=') ↔ ∀ u ∈ text.head?, u ≠ unit '=' :=
      fun text => ⟨fun ht u hu => by rintro rfl; exact ht hu, fun ht hr => ht _ hr rfl⟩
    cases op with
    | less | greater =>
      exact (equals _).mpr (head?_append_barrier ((equals _).mp h) fun u hu => (hm u hu).2.2)
    | _ => trivial
  | _ => trivial

/-- A longest lexeme stays one when the text behind it goes on with a barrier. -/
theorem Longest.append {kind : TokenKind} {value text : Text} (h : Longest kind value text rest)
    (hm : Barrier more) : Longest kind value text (rest ++ more) :=
  longest_iff.mpr ⟨h.spells, h.bounded.append hm⟩

end

/-- In front of a barrier every lexeme is a longest one. -/
theorem Spells.longest {kind : TokenKind} {value text rest : Text} (h : Spells kind value text)
    (hr : Barrier rest) : Longest kind value text rest :=
  longest_iff.mpr ⟨h, hr.bounded kind⟩

end PhotoQuery
