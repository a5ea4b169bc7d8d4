import PhotoQuery.Proofs.Lookup
import PhotoQuery.Proofs.Number.Numeral
import PhotoQuery.Token.Scan

/-!
# Token — lexemes

`Spells kind value text` says which texts are lexemes, of which kind and with which value, apart
from how a source is read: five marks, six comparison symbols, words, two sorts of numerals, and
strings between like quotes.  Many lexemes can start where one does, and `Longest` singles out the
one that no other is longer than.

* `Spells.lexeme`: where some lexeme starts, `lexeme` finds one that is no shorter, and the same
  one if it is no longer.
* `lexeme_eq_ok_iff`: `lexeme` finds exactly the longest lexeme.
* `lexeme_eq_error_iff`: it fails exactly where no lexeme starts, and says whether a string does.
-/

namespace PhotoQuery

open Text

/-! ### Which texts are lexemes -/

/-- A unit that words start with, and then units that they go on with. -/
def Text.IsWord (text : Text) : Prop :=
  ∃ u rest, text = u :: rest ∧ isWordStart u ∧ ∀ v ∈ rest, isWordPart v

/-- The lexemes of a single unit. -/
def marks : List (TokenKind × Char) :=
  [(.leftParen, '('), (.rightParen, ')'), (.dot, '.'), (.comma, ','), (.pipe, '|')]

/-- What may stand between two quotes, and what it denotes.  In it a quote comes behind a
backslash, and so does a backslash. -/
inductive StringBody (quote : CodeUnit) : Text → Text → Prop where
  | nil : StringBody quote [] []
  | plain {u : CodeUnit} {body value : Text} (hq : u ≠ quote) (hb : u ≠ unit '\\')
      (h : StringBody quote body value) : StringBody quote (u :: body) (u :: value)
  | newline {body value : Text} (h : StringBody quote body value) :
      StringBody quote (unit '\\' :: unit 'n' :: body) (unit '\n' :: value)
  | carriage {body value : Text} (h : StringBody quote body value) :
      StringBody quote (unit '\\' :: unit 'r' :: body) (unit '\r' :: value)
  | tab {body value : Text} (h : StringBody quote body value) :
      StringBody quote (unit '\\' :: unit 't' :: body) (unit '\t' :: value)
  | kept {u : CodeUnit} {body value : Text} (hn : u ≠ unit 'n') (hr : u ≠ unit 'r')
      (ht : u ≠ unit 't') (h : StringBody quote body value) :
      StringBody quote (unit '\\' :: u :: body) (u :: value)

/-- The third text is a lexeme of the kind and has the second as its value. -/
inductive Spells : TokenKind → Text → Text → Prop where
  | mark {kind : TokenKind} {c : Char} (h : (kind, c) ∈ marks) : Spells kind [unit c] [unit c]
  | symbol (op : Comparison) :
      Spells (.comparison op) (.ofString op.symbol) (.ofString op.symbol)
  | keyword {k : Keyword} {text : Text} (h : text.IsWord)
      (hk : text.lower = .ofString k.spelling) : Spells (.keyword k) text text
  | identifier {text : Text} (h : text.IsWord)
      (hk : ∀ k : Keyword, text.lower ≠ .ofString k.spelling) : Spells .identifier text text
  | integer {text : Text} (h : text.IsNumeral) : Spells .integer text text
  | decimal {text : Text} (h : text.IsFraction) : Spells .decimal text text
  | string {quote : CodeUnit} {body value : Text} (hq : isQuote quote)
      (h : StringBody quote body value) : Spells .string value (quote :: body ++ [quote])

/-- A lexeme, and no longer one starts where it does, given the text behind it. -/
structure Longest (kind : TokenKind) (value text rest : Text) : Prop where
  spells : Spells kind value text
  length_le : ∀ {kind' : TokenKind} {value' text' : Text}, Spells kind' value' text' →
    text' <+: text ++ rest → text'.length ≤ text.length

/-- Nothing that starts like this is a lexeme, for this reason: it is an unclosed string, or its
first unit starts no lexeme. -/
inductive Stuck (u : CodeUnit) (rest : Text) : LexicalError → Prop where
  | unexpected (hq : isQuote u = false)
      (h : ∀ {kind : TokenKind} {value text : Text},
        Spells kind value text → ¬ text <+: u :: rest) :
      Stuck u rest (.unexpectedUnit u)
  | unterminated (hq : isQuote u)
      (h : ∀ {body value tail : Text}, StringBody u body value → rest ≠ body ++ u :: tail) :
      Stuck u rest .unterminatedString

/-! ### Units -/

/-- Words start with an ASCII letter or an underscore. -/
theorem isWordStart_iff {u : CodeUnit} :
    isWordStart u ↔ (0x61 ≤ u.toNat ∧ u.toNat ≤ 0x7A) ∨ (0x41 ≤ u.toNat ∧ u.toNat ≤ 0x5A) ∨
      u.toNat = 0x5F := by
  have underscore : u = unit '_' ↔ u.toNat = 0x5F := (@UInt16.toNat_inj u (unit '_')).symm
  simp only [isWordStart, Bool.or_eq_true, Bool.and_eq_true, decide_eq_true_eq,
    UInt16.le_iff_toNat_le, underscore, or_assoc]
  rfl

theorem isWordPart_iff {u : CodeUnit} : isWordPart u ↔ isWordStart u ∨ isDigit u := by
  rw [isWordPart, Bool.or_eq_true]

theorem Text.IsWord.parts {text : Text} (h : text.IsWord) : ∀ u ∈ text, isWordPart u := by
  obtain ⟨u, rest, rfl, hu, hr⟩ := h
  exact List.forall_mem_cons.mpr ⟨isWordPart_iff.mpr (.inl hu), hr⟩

theorem Text.isWord_iff {text : Text} :
    text.IsWord ↔ text.head?.any isWordStart ∧ text.all isWordPart := by
  constructor
  · intro h
    refine ⟨?_, List.all_eq_true.mpr h.parts⟩
    obtain ⟨u, rest, rfl, hu, -⟩ := h
    exact hu
  · rintro ⟨start, parts⟩
    cases text with
    | nil => cases start
    | cons u rest =>
      rw [List.all_cons, Bool.and_eq_true, List.all_eq_true] at parts
      exact ⟨u, rest, rfl, start, parts.2⟩

instance (text : Text) : Decidable text.IsWord := decidable_of_iff _ Text.isWord_iff.symm

theorem not_isDigit_of_isWordStart {u : CodeUnit} (h : isWordStart u) : isDigit u = false := by
  rw [Bool.eq_false_iff]
  intro hd
  have := isWordStart_iff.mp h
  have := isDigit_iff.mp hd
  omega

/-- A word has no blank in it, so it ends in front of one. -/
theorem not_isBlank_of_isWordPart {u : CodeUnit} (h : isWordPart u) : isBlank u = false := by
  rcases isWordPart_iff.mp h with h | h
  · have := isWordStart_iff.mp h
    simp only [isBlank, Bool.or_eq_false_iff, Bool.and_eq_false_iff, decide_eq_false_iff_not,
      beq_eq_false_iff_ne]
    omega
  · exact not_isBlank_of_isDigit h

/-! ### Strings -/

theorem stringBody?_plain {quote u : CodeUnit} (hq : u ≠ quote) (hb : u ≠ unit '\\')
    (rest : Text) : stringBody? quote (u :: rest) =
      (stringBody? quote rest).map fun (value, n) => (u :: value, n + 1) := by
  cases rest with
  | nil => simp [stringBody?, hq]
  | cons v rest => rw [stringBody?, if_neg hq, if_neg hb]

theorem stringBody?_close (quote : CodeUnit) (rest : Text) :
    stringBody? quote (quote :: rest) = some ([], 1) := by
  cases rest <;> simp [stringBody?]

/-- A backslash and the unit behind it stand for one unit, whatever it is. -/
theorem stringBody?_escape {quote : CodeUnit} (hq : quote ≠ unit '\\') (u : CodeUnit)
    (rest : Text) : stringBody? quote (unit '\\' :: u :: rest) =
      (stringBody? quote rest).map fun (value, n) => (unescape u :: value, n + 2) := by
  rw [stringBody?, if_neg (Ne.symm hq), if_pos rfl]

/-- The three escapes and all the others are one rule: what a backslash makes of the unit behind
it. -/
theorem StringBody.escape {quote : CodeUnit} {body value : Text} (h : StringBody quote body value)
    (u : CodeUnit) : StringBody quote (unit '\\' :: u :: body) (unescape u :: value) := by
  unfold unescape
  split
  · subst u; exact .newline h
  · split
    · subst u; exact .carriage h
    · split
      · subst u; exact .tab h
      · exact .kept ‹_› ‹_› ‹_› h

/-- What is read up to the closing quote is the inside of a string and denotes the value. -/
theorem stringBody?_sound {quote : CodeUnit} {text value : Text} {n : Nat}
    (h : stringBody? quote text = some (value, n)) :
    ∃ body tail, text = body ++ quote :: tail ∧ n = body.length + 1 ∧
      StringBody quote body value := by
  fun_induction stringBody? quote text generalizing value n with
  | case1 => cases h
  | case2 => cases h; exact ⟨[], [], rfl, rfl, .nil⟩
  | case3 => cases h
  | case4 v rest => cases h; exact ⟨[], v :: rest, rfl, rfl, .nil⟩
  | case5 v rest hq ih =>
    obtain ⟨⟨inner, m⟩, hr, he⟩ := Option.map_eq_some_iff.mp h
    cases he
    obtain ⟨body, tail, rfl, rfl, hb⟩ := ih hr
    exact ⟨unit '\\' :: v :: body, tail, rfl, rfl, hb.escape v⟩
  | case6 u v rest hq hb ih =>
    obtain ⟨⟨inner, m⟩, hr, he⟩ := Option.map_eq_some_iff.mp h
    cases he
    obtain ⟨body, tail, ht, rfl, hs⟩ := ih hr
    exact ⟨u :: body, tail, by rw [ht]; rfl, rfl, .plain hq hb hs⟩

/-- The inside of a string is read up to the first quote that closes it, whatever is behind. -/
theorem StringBody.read {quote : CodeUnit} {body value : Text} (h : StringBody quote body value)
    (hq : quote ≠ unit '\\') (tail : Text) :
    stringBody? quote (body ++ quote :: tail) = some (value, body.length + 1) := by
  induction h with
  | nil => exact stringBody?_close quote tail
  | plain hu hb _ ih => rw [List.cons_append, stringBody?_plain hu hb, ih]; rfl
  | newline _ ih => simp only [List.cons_append, stringBody?_escape hq, ih]; rfl
  | carriage _ ih => simp only [List.cons_append, stringBody?_escape hq, ih]; rfl
  | tab _ ih => simp only [List.cons_append, stringBody?_escape hq, ih]; rfl
  | @kept u body value hn hr ht _ ih =>
    simp only [List.cons_append, stringBody?_escape hq, ih, unescape, hn, hr, ht, if_false]
    rfl

/-! ### Where a lexeme starts -/

theorem lexeme_mark {kind : TokenKind} {c : Char} (h : (kind, c) ∈ marks) (rest : Text) :
    lexeme (unit c) rest = .ok (.plain kind [unit c]) := by
  simp only [marks, List.mem_cons, Prod.mk.injEq, List.not_mem_nil, or_false] at h
  rcases h with ⟨rfl, rfl⟩ | ⟨rfl, rfl⟩ | ⟨rfl, rfl⟩ | ⟨rfl, rfl⟩ | ⟨rfl, rfl⟩ <;> rfl

theorem lexeme_of_comparison? {u : CodeUnit} {rest : Text} {op : Comparison}
    (hp : punctuation? u = none) (hc : comparison? u rest = some op) :
    lexeme u rest = .ok (.plain (.comparison op) (ofString op.symbol)) := by
  rw [lexeme, hp, hc]

/-- A symbol is found where it stands, unless it is the first half of a longer one. -/
theorem lexeme_symbol (op : Comparison) {u : CodeUnit} {rest tail : Text}
    (heq : u :: rest = ofString op.symbol ++ tail)
    (h : op = .less ∨ op = .greater → tail.head? ≠ some (unit '=')) :
    lexeme u rest = .ok (.plain (.comparison op) (ofString op.symbol)) := by
  cases op with
  | equal | notEqual | lessOrEqual | greaterOrEqual => cases heq; rfl
  | less =>
    obtain ⟨rfl, rfl⟩ : u = unit '<' ∧ rest = tail := List.cons.inj heq
    have alone := h (.inl rfl)
    have ne : unit '<' ≠ unit '=' ∧ unit '<' ≠ unit '!' := by decide
    exact lexeme_of_comparison? rfl (by simp [comparison?, alone, ne])
  | greater =>
    obtain ⟨rfl, rfl⟩ : u = unit '>' ∧ rest = tail := List.cons.inj heq
    have alone := h (.inr rfl)
    have ne : unit '>' ≠ unit '=' ∧ unit '>' ≠ unit '!' ∧ unit '>' ≠ unit '<' := by decide
    exact lexeme_of_comparison? rfl (by simp [comparison?, alone, ne])

/-- Behind a quote a string is looked for, and nothing else. -/
theorem lexeme_of_isQuote {u : CodeUnit} (h : isQuote u) (rest : Text) :
    lexeme u rest = match stringBody? u rest with
      | some (value, n) => .ok ⟨.string, value, n + 1⟩
      | none => .error .unterminatedString := by
  simp only [isQuote, Bool.or_eq_true, decide_eq_true_eq] at h
  rcases h with rfl | rfl <;> rfl

/-- Where a word can go on, a number or a word is found. -/
theorem lexeme_of_isWordPart {u : CodeUnit} (h : isWordPart u) (rest : Text) :
    lexeme u rest =
      .ok (if isDigit u then numberLexeme (u :: rest) else wordLexeme (u :: rest)) := by
  have ne : ∀ c : Char, isWordPart (unit c) = false → u ≠ unit c := by
    rintro c hc rfl
    rw [h] at hc
    cases hc
  have punctuation : punctuation? u = none := by
    simp [punctuation?, ne '(' (by decide), ne ')' (by decide), ne '.' (by decide),
      ne ',' (by decide), ne '|' (by decide)]
  have symbol : comparison? u rest = none := by
    simp [comparison?, ne '=' (by decide), ne '!' (by decide), ne '<' (by decide),
      ne '>' (by decide)]
  have quote : isQuote u = false := by
    simp [isQuote, ne '"' (by decide), ne '\'' (by decide)]
  rw [lexeme, punctuation, symbol]
  simp only [quote]
  rcases isWordPart_iff.mp h with hw | hd
  · simp [hw, not_isDigit_of_isWordStart hw]
  · simp [hd]

/-! ### The lexeme found is a lexeme -/

/-- What is taken for a mark is one of the five. -/
theorem punctuation?_mark {u : CodeUnit} {kind : TokenKind} (h : punctuation? u = some kind) :
    ∃ c, (kind, c) ∈ marks ∧ u = unit c := by
  simp only [punctuation?] at h
  repeat' split at h
  all_goals cases h
  · exact ⟨'(', by decide, ‹_›⟩
  · exact ⟨')', by decide, ‹_›⟩
  · exact ⟨'.', by decide, ‹_›⟩
  · exact ⟨',', by decide, ‹_›⟩
  · exact ⟨'|', by decide, ‹_›⟩

theorem comparison?_symbol {u : CodeUnit} {rest : Text} {op : Comparison}
    (h : comparison? u rest = some op) : ∃ tail, u :: rest = ofString op.symbol ++ tail := by
  have equals : ∀ (c : Char) (op : Comparison), u = unit c → rest.head? = some (unit '=') →
      ofString op.symbol = [unit c, unit '='] →
      ∃ tail, u :: rest = ofString op.symbol ++ tail := by
    rintro c op rfl hr hs
    obtain ⟨tail, rfl⟩ := List.head?_eq_some_iff.mp hr
    exact ⟨tail, by rw [hs]; rfl⟩
  simp only [comparison?] at h
  repeat' split at h
  all_goals cases h
  · exact equals '=' .equal ‹_› ‹_› (by decide)
  · exact equals '!' .notEqual ‹_› ‹_› (by decide)
  · exact equals '<' .lessOrEqual ‹_› ‹_› (by decide)
  · subst u; exact ⟨rest, rfl⟩
  · exact equals '>' .greaterOrEqual ‹_› ‹_› (by decide)
  · subst u; exact ⟨rest, rfl⟩

theorem Keyword.mem_list (k : Keyword) : k ∈ Keyword.list := by
  cases k <;> decide

theorem keyword?_eq_none {word : Text} :
    keyword? word = none ↔ ∀ k : Keyword, word.lower ≠ ofString k.spelling := by
  rw [keyword?, List.find?_eq_none]
  constructor
  · intro h k hk
    exact h k k.mem_list (by simpa using hk)
  · intro h k _ hk
    exact h k (by simpa using hk)

/-- A word is the keyword that it spells in small letters, and no two keywords are spelled alike. -/
theorem keyword?_eq_some {word : Text} {k : Keyword} :
    keyword? word = some k ↔ word.lower = ofString k.spelling := by
  have distinct : ∀ k ∈ Keyword.list, ∀ k' ∈ Keyword.list,
      ofString k.spelling = ofString k'.spelling → k = k' := by decide
  exact find?_key_eq_some distinct (fun _ => beq_iff_eq) k.mem_list

/-- The kind of a word as a token. -/
theorem Spells.word {text : Text} (h : text.IsWord) :
    Spells ((keyword? text).elim .identifier .keyword) text text := by
  cases hk : keyword? text with
  | none => exact .identifier h (keyword?_eq_none.mp hk)
  | some k => exact .keyword h (keyword?_eq_some.mp hk)

theorem wordLexeme_spells {u : CodeUnit} (hu : isWordStart u) (rest : Text) :
    ∃ text tail, u :: rest = text ++ tail ∧ text.length = (wordLexeme (u :: rest)).length ∧
      Spells (wordLexeme (u :: rest)).kind (wordLexeme (u :: rest)).value text := by
  refine ⟨(u :: rest).takeWhile isWordPart, (u :: rest).dropWhile isWordPart,
    List.takeWhile_append_dropWhile.symm, rfl, Spells.word ?_⟩
  have hp := isWordPart_iff.mpr (.inl hu)
  rw [List.takeWhile_cons_of_pos hp]
  exact ⟨u, _, rfl, hu, List.all_eq_true.mp List.all_takeWhile⟩

theorem fractionDigits_digits (text : Text) : ∀ u ∈ fractionDigits text, isDigit u := by
  unfold fractionDigits
  split
  · simp
  · split
    · exact List.all_eq_true.mp List.all_takeWhile
    · simp

/-- The digits of a fraction stand behind a point. -/
theorem fractionDigits_prefix {text : Text} (h : fractionDigits text ≠ []) :
    ∃ tail, text = unit '.' :: fractionDigits text ++ tail := by
  unfold fractionDigits at *
  split at h
  · exact absurd rfl h
  · rename_i u rest
    split at h
    · rename_i point
      exact ⟨rest.dropWhile isDigit, by
        rw [if_pos point, List.cons_append, List.takeWhile_append_dropWhile, point]⟩
    · exact absurd rfl h

theorem numberLexeme_spells {u : CodeUnit} (hu : isDigit u) (rest : Text) :
    ∃ text tail, u :: rest = text ++ tail ∧ text.length = (numberLexeme (u :: rest)).length ∧
      Spells (numberLexeme (u :: rest)).kind (numberLexeme (u :: rest)).value text := by
  have whole : IsNumeral ((u :: rest).takeWhile isDigit) :=
    ⟨by simp [hu], List.all_eq_true.mp List.all_takeWhile⟩
  have cut := (@List.takeWhile_append_dropWhile _ isDigit (u :: rest)).symm
  rw [numberLexeme]
  split
  · exact ⟨_, _, cut, rfl, .integer whole⟩
  · rename_i nonempty
    have fraction : fractionDigits ((u :: rest).dropWhile isDigit) ≠ [] := by simpa using nonempty
    obtain ⟨tail, ht⟩ := fractionDigits_prefix fraction
    refine ⟨_, tail, ?_, rfl, .decimal ⟨_, _, whole, ⟨fraction, fractionDigits_digits _⟩, rfl⟩⟩
    rw [List.append_assoc, ← ht]
    exact cut

/-- Whatever is found is a lexeme, and starts where the text does. -/
theorem lexeme_spells {u : CodeUnit} {rest : Text} {l : Lexeme} (h : lexeme u rest = .ok l) :
    ∃ text tail, u :: rest = text ++ tail ∧ text.length = l.length ∧
      Spells l.kind l.value text := by
  -- in the order that a reading asks: a mark, a symbol, a quote, a digit, a letter
  unfold lexeme at h
  split at h
  · rename_i kind _ punctuation
    cases h
    obtain ⟨c, hc, rfl⟩ := punctuation?_mark punctuation
    exact ⟨[unit c], rest, rfl, rfl, .mark hc⟩
  · rename_i op _ symbol
    cases h
    obtain ⟨tail, ht⟩ := comparison?_symbol symbol
    exact ⟨ofString op.symbol, tail, ht, rfl, .symbol op⟩
  · split at h
    · rename_i quote
      split at h
      · rename_i value n read
        cases h
        obtain ⟨body, tail, rfl, rfl, hb⟩ := stringBody?_sound read
        exact ⟨u :: body ++ [u], tail, by simp, by simp, .string quote hb⟩
      · cases h
    · split at h
      · rename_i digit
        cases h
        exact numberLexeme_spells digit rest
      · split at h
        · rename_i start
          cases h
          exact wordLexeme_spells start rest
        · cases h

/-! ### No lexeme is longer than the one found -/

/-- A word is not cut short by what is behind it. -/
theorem wordLexeme_append {word : Text} (h : word.IsWord) (tail : Text) :
    ∃ more, wordLexeme (word ++ tail) =
      .plain ((keyword? (word ++ more)).elim .identifier .keyword) (word ++ more) := by
  exact ⟨tail.takeWhile isWordPart, by rw [wordLexeme, List.takeWhile_append_of_pos h.parts]⟩

/-- A numeral is not cut short by what is behind it, and is an integer if nothing of that is taken
along. -/
theorem numberLexeme_append {digits : Text} (h : digits.IsNumeral) (tail : Text) :
    ∃ kind more, numberLexeme (digits ++ tail) = .plain kind (digits ++ more) ∧
      (more = [] → kind = .integer) := by
  rw [numberLexeme, List.takeWhile_append_of_pos h.2]
  split
  · exact ⟨_, _, rfl, fun _ => rfl⟩
  · exact ⟨_, _, by rw [List.append_assoc], by simp⟩

/-- A numeral with a fraction is not cut short, and is a decimal. -/
theorem numberLexeme_fraction {whole fraction : Text} (hw : whole.IsNumeral)
    (hf : fraction.IsNumeral) (tail : Text) :
    ∃ more, numberLexeme (whole ++ unit '.' :: fraction ++ tail) =
      .plain .decimal (whole ++ unit '.' :: fraction ++ more) := by
  have point : ∀ u, (unit '.' :: (fraction ++ tail)).head? = some u → isDigit u = false := by
    intro u hu
    cases hu
    decide
  obtain ⟨taken, dropped⟩ := Number.takeWhile_append hw.2 point
  have digits : fractionDigits (unit '.' :: (fraction ++ tail)) =
      fraction ++ tail.takeWhile isDigit := by
    rw [fractionDigits, if_pos rfl, List.takeWhile_append_of_pos hf.2]
  refine ⟨tail.takeWhile isDigit, ?_⟩
  rw [List.append_assoc, List.cons_append, numberLexeme, taken, dropped, digits,
    if_neg (by simp [hf.1]), List.append_assoc, List.cons_append]

/-- Where a word stands, it or a longer word is found. -/
theorem lexeme_word {word : Text} (h : word.IsWord) {u : CodeUnit} {rest tail : Text}
    (heq : u :: rest = word ++ tail) :
    ∃ more, lexeme u rest =
      .ok (.plain ((keyword? (word ++ more)).elim .identifier .keyword) (word ++ more)) := by
  obtain ⟨more, read⟩ := wordLexeme_append h tail
  obtain ⟨v, inner, rfl, hv, -⟩ := h
  obtain ⟨rfl, -⟩ := List.cons.inj heq
  refine ⟨more, ?_⟩
  rw [lexeme_of_isWordPart (isWordPart_iff.mpr (.inl hv)), not_isDigit_of_isWordStart hv, heq,
    ← read]
  rfl

theorem lexeme_numeral {digits : Text} (h : digits.IsNumeral) {u : CodeUnit} {rest tail : Text}
    (heq : u :: rest = digits ++ tail) : lexeme u rest = .ok (numberLexeme (u :: rest)) := by
  obtain ⟨v, inner, rfl⟩ := List.exists_cons_of_ne_nil h.1
  obtain ⟨rfl, -⟩ := List.cons.inj heq
  have digit : isDigit u := h.2 u (by simp)
  rw [lexeme_of_isWordPart (isWordPart_iff.mpr (.inr digit)), if_pos digit]

/-- Where a symbol stands, it is found, or the longer one that it is the first half of. -/
theorem lexeme_symbol_extends (op : Comparison) {u : CodeUnit} {rest tail : Text}
    (heq : u :: rest = ofString op.symbol ++ tail) :
    ∃ op' more, lexeme u rest = .ok (.plain (.comparison op') (ofString op.symbol ++ more)) ∧
      (more = [] → op' = op) := by
  by_cases alone : op = .less ∨ op = .greater → tail.head? ≠ some (unit '=')
  · exact ⟨op, [], by rw [List.append_nil, lexeme_symbol op heq alone], fun _ => rfl⟩
  · obtain ⟨single, equals⟩ := Classical.not_imp.mp alone
    obtain ⟨tail, rfl⟩ := List.head?_eq_some_iff.mp (Classical.not_not.mp equals)
    rcases single with rfl | rfl
    · exact ⟨.lessOrEqual, [unit '='], lexeme_symbol .lessOrEqual heq (by simp), by simp⟩
    · exact ⟨.greaterOrEqual, [unit '='], lexeme_symbol .greaterOrEqual heq (by simp), by simp⟩

/-- Where a lexeme stands that is its own value, it is found, or a longer one is. -/
theorem Spells.plain_extends {kind : TokenKind} {value text : Text} (h : Spells kind value text)
    (hk : kind ≠ .string) {u : CodeUnit} {rest tail : Text} (heq : u :: rest = text ++ tail) :
    value = text ∧ ∃ kind' more, lexeme u rest = .ok (.plain kind' (text ++ more)) ∧
      (more = [] → kind' = kind) := by
  cases h with
  | @mark kind c hc =>
    -- a mark goes on with nothing
    obtain ⟨rfl, rfl⟩ : u = unit c ∧ rest = tail := List.cons.inj heq
    exact ⟨rfl, kind, [], lexeme_mark hc rest, fun _ => rfl⟩
  | symbol op =>
    obtain ⟨op', more, read, same⟩ := lexeme_symbol_extends op heq
    exact ⟨rfl, .comparison op', more, read, fun hm => by rw [same hm]⟩
  | keyword hw hl =>
    obtain ⟨more, read⟩ := lexeme_word hw heq
    refine ⟨rfl, _, more, read, ?_⟩
    rintro rfl
    rw [List.append_nil, keyword?_eq_some.mpr hl]
    rfl
  | identifier hw hl =>
    obtain ⟨more, read⟩ := lexeme_word hw heq
    refine ⟨rfl, _, more, read, ?_⟩
    rintro rfl
    rw [List.append_nil, keyword?_eq_none.mpr hl]
    rfl
  | integer hn =>
    obtain ⟨kind', more, read, same⟩ := numberLexeme_append hn tail
    exact ⟨rfl, kind', more, by rw [lexeme_numeral hn heq, heq, read], same⟩
  | decimal hf =>
    obtain ⟨whole, fraction, hw, hf, rfl⟩ := hf
    obtain ⟨more, read⟩ := numberLexeme_fraction hw hf tail
    refine ⟨rfl, .decimal, more, ?_, fun _ => rfl⟩
    rw [lexeme_numeral hw (heq.trans (List.append_assoc ..)), heq, read]
  | string => exact absurd rfl hk

/-- Where a string stands, it is found. -/
theorem StringBody.lexeme {quote : CodeUnit} {body value : Text} (h : StringBody quote body value)
    (hq : isQuote quote) (tail : Text) :
    lexeme quote (body ++ quote :: tail) = .ok ⟨.string, value, body.length + 2⟩ := by
  have ne : quote ≠ unit '\\' := by
    rintro rfl
    exact absurd hq (by decide)
  rw [lexeme_of_isQuote hq, h.read ne]

/-- Where a lexeme stands, one is found that is no shorter, and it is that one if it is no
longer. -/
theorem Spells.lexeme {kind : TokenKind} {value text : Text} (h : Spells kind value text)
    {u : CodeUnit} {rest tail : Text} (heq : u :: rest = text ++ tail) :
    ∃ l, lexeme u rest = .ok l ∧ text.length ≤ l.length ∧
      (l.length = text.length → l.kind = kind ∧ l.value = value) := by
  by_cases hk : kind = .string
  · subst hk
    cases h with
    | mark hc => simp [marks] at hc
    | @string quote body _ hq hb =>
      obtain ⟨rfl, rfl⟩ : u = quote ∧ rest = body ++ quote :: tail := by simpa using heq
      exact ⟨_, hb.lexeme hq tail, by simp, fun _ => ⟨rfl, rfl⟩⟩
  · obtain ⟨rfl, kind', more, read, same⟩ := h.plain_extends hk heq
    refine ⟨_, read, by simp [Lexeme.plain], ?_⟩
    intro hl
    obtain rfl : more = [] := by simpa [Lexeme.plain] using hl
    exact ⟨same rfl, List.append_nil value⟩

/-! ### The longest lexeme -/

/-- No lexeme is empty, so every lexeme takes a reading further. -/
theorem Spells.ne_nil {kind : TokenKind} {value text : Text} (h : Spells kind value text) :
    text ≠ [] := by
  cases h with
  | mark | string => simp
  | symbol op => cases op <;> decide
  | keyword h | identifier h => obtain ⟨u, rest, rfl, -⟩ := h; simp
  | integer h => exact h.1
  | decimal h => obtain ⟨whole, fraction, -, -, rfl⟩ := h; simp

/-- **The lexeme found is the longest** of those that start where it does. -/
theorem lexeme_eq_ok_iff {u : CodeUnit} {rest : Text} {l : Lexeme} :
    lexeme u rest = .ok l ↔ ∃ text tail, u :: rest = text ++ tail ∧ text.length = l.length ∧
      Longest l.kind l.value text tail := by
  constructor
  · intro read
    obtain ⟨text, tail, heq, hl, hs⟩ := lexeme_spells read
    refine ⟨text, tail, heq, hl, hs, ?_⟩
    rintro kind' value' text' hs' ⟨tail', heq'⟩
    obtain ⟨l', read', le, -⟩ := hs'.lexeme (heq.trans heq'.symm)
    obtain rfl : l = l' := by simpa [read] using read'
    rwa [hl]
  · rintro ⟨text, tail, heq, hl, hs, longest⟩
    obtain ⟨l', read, le, same⟩ := hs.lexeme heq
    obtain ⟨text', tail', heq', hl', hs'⟩ := lexeme_spells read
    -- what is found is a lexeme too, so the longest one is no shorter
    have short : l'.length ≤ text.length := by
      rw [← hl']
      exact longest hs' ⟨tail', heq'.symm.trans heq⟩
    have equal : l'.length = text.length := Nat.le_antisymm short le
    obtain ⟨hk, hv⟩ := same equal
    rw [read]
    cases l; cases l'
    simp_all

/-- An error is about a string that is open, or names the unit found. -/
theorem lexeme_error_cause {u : CodeUnit} {rest : Text} {e : LexicalError}
    (h : lexeme u rest = .error e) :
    e = if isQuote u then .unterminatedString else .unexpectedUnit u := by
  by_cases hq : isQuote u
  · rw [lexeme_of_isQuote hq] at h
    rw [if_pos hq]
    split at h
    · cases h
    · exact (Except.error.inj h).symm
  · rw [lexeme] at h
    rw [if_neg hq]
    split at h
    · cases h
    · cases h
    · rw [if_neg hq] at h
      split at h
      · cases h
      · split at h
        · cases h
        · exact (Except.error.inj h).symm

/-- Where reading fails, no lexeme starts. -/
theorem stuck_of_error {u : CodeUnit} {rest : Text} {e : LexicalError}
    (h : lexeme u rest = .error e) : Stuck u rest e := by
  have cause := lexeme_error_cause h
  by_cases hq : isQuote u
  · rw [cause, if_pos hq]
    refine .unterminated hq ?_
    rintro body value tail hb rfl
    rw [hb.lexeme hq] at h
    cases h
  · rw [cause, if_neg hq]
    refine .unexpected (Bool.eq_false_iff.mpr hq) ?_
    rintro kind value text hs ⟨tail, heq⟩
    obtain ⟨l, read, -⟩ := hs.lexeme heq.symm
    rw [read] at h
    cases h

/-- Where no lexeme starts, none is found. -/
theorem Stuck.not_ok {u : CodeUnit} {rest : Text} {e : LexicalError} (h : Stuck u rest e)
    (l : Lexeme) : lexeme u rest ≠ .ok l := by
  intro read
  cases h with
  | unexpected hq none =>
    obtain ⟨text, tail, heq, -, hs⟩ := lexeme_spells read
    exact none hs ⟨tail, heq.symm⟩
  | unterminated hq unclosed =>
    rw [lexeme_of_isQuote hq] at read
    split at read
    · rename_i value n body
      obtain ⟨body, tail, rfl, -, hb⟩ := stringBody?_sound body
      exact unclosed hb rfl
    · cases read

/-- The reason why no lexeme starts is determined by the unit found there. -/
theorem Stuck.cause {u : CodeUnit} {rest : Text} {e : LexicalError} (h : Stuck u rest e) :
    e = if isQuote u then .unterminatedString else .unexpectedUnit u := by
  cases h with
  | unexpected hq => simp [hq]
  | unterminated hq => simp [hq]

/-- **No lexeme is found** exactly where none starts. -/
theorem lexeme_eq_error_iff {u : CodeUnit} {rest : Text} {e : LexicalError} :
    lexeme u rest = .error e ↔ Stuck u rest e := by
  constructor
  · exact stuck_of_error
  · intro h
    cases read : lexeme u rest with
    | ok l => exact absurd read (h.not_ok l)
    | error e' => rw [lexeme_error_cause read, h.cause]

end PhotoQuery
