import Mathlib.Data.List.Forall2
import PhotoQuery.Proofs.Text.Letters
import PhotoQuery.Proofs.Token.Boundary

/-!
# Token — changing the case of letters

`Recases source source'` says that one source is another with the case of some ASCII letters
changed, none of them in a string literal or in the name of a raw tag.  These are the two places
where a letter stands for itself; everywhere else letters spell keywords and names.

A run through the first source leads through the second one over tokens of the same kinds at the
same places (`Run.recased`).  Only words are spelled differently, and they are the same words in
small letters; a lexeme that is no word has no letters, or is a string and so unchanged.
-/

namespace PhotoQuery

open Text

/-! ### Raw tags -/

/-- The raw tag that the path at the start of a token list names, if that is one through
`exif.raw`. -/
def tagAtHead? : List Token → Option Token
  | root :: dot :: segment :: dot' :: tag :: _ =>
    if root.kind = .identifier ∧ root.value.IsNamed "exif" ∧ dot.kind = .dot ∧
        segment.kind = .identifier ∧ segment.value.IsNamed "raw" ∧ dot'.kind = .dot ∧
        tag.kind = .identifier then some tag
    else none
  | _ => none

/-- The names of raw tags in a token list: the third segments of the paths through `exif.raw`.  No
path starts behind a dot. -/
def rawTags (behindDot : Bool) : List Token → List Token
  | [] => []
  | t :: rest =>
    (if behindDot then [] else (tagAtHead? (t :: rest)).toList) ++ rawTags (t.kind = .dot) rest

/-! ### Sources -/

/-- The text that a token covers in its source: the lexeme that starts at its position. -/
def Token.covered (source : Text) (t : Token) : Text :=
  match source.drop t.position with
  | [] => []
  | u :: rest =>
    match lexeme u rest with
    | .ok l => (u :: rest).take l.length
    | .error _ => []

/-- The second source is the first one with the case of some ASCII letters changed, none of them in
a string literal or in the name of a raw tag. -/
structure Recases (source source' : Text) : Prop where
  letters : SameLetters source source'
  kept : ∀ t ∈ (Scan.ofText source).tokens,
    t.kind = .string ∨ t ∈ rawTags false (Scan.ofText source).tokens →
      t.covered source <+: source'.drop t.position

/-- A token in a run covers the lexeme that it was found as. -/
theorem Longest.covered {kind : TokenKind} {value text rest source : Text} {position : Nat}
    (h : Longest kind value text rest) (hs : source.drop position = text ++ rest) :
    Token.covered source ⟨kind, value, position⟩ = text := by
  obtain ⟨u, tail, rfl, -, read⟩ := h.found
  simp only [Token.covered, hs, List.cons_append, read]
  exact List.take_left

/-! ### Units -/

/-- Letters are the ASCII letters, small or capital. -/
theorem isLetter_iff {u : CodeUnit} : isLetter u ↔
    (0x61 ≤ u.toNat ∧ u.toNat ≤ 0x7A) ∨ (0x41 ≤ u.toNat ∧ u.toNat ≤ 0x5A) := by
  simp only [isLetter, isAsciiUpper, isAsciiLower, Bool.or_eq_true, Bool.and_eq_true,
    decide_eq_true_eq]
  omega

theorem isLetter_smallUnit (u : CodeUnit) : isLetter (smallUnit u) ↔ isLetter u := by
  rw [isLetter_iff, isLetter_iff, toNat_smallUnit]
  simp only [isAsciiUpper, Bool.and_eq_true, decide_eq_true_eq]
  split <;> omega

theorem isWordStart_smallUnit (u : CodeUnit) : isWordStart (smallUnit u) ↔ isWordStart u := by
  rw [isWordStart_iff, isWordStart_iff, toNat_smallUnit]
  simp only [isAsciiUpper, Bool.and_eq_true, decide_eq_true_eq]
  split <;> omega

theorem isDigit_smallUnit (u : CodeUnit) : isDigit (smallUnit u) ↔ isDigit u := by
  rw [isDigit_iff, isDigit_iff, toNat_smallUnit]
  simp only [isAsciiUpper, Bool.and_eq_true, decide_eq_true_eq]
  split <;> omega

theorem isWordPart_smallUnit (u : CodeUnit) : isWordPart (smallUnit u) ↔ isWordPart u := by
  rw [isWordPart_iff, isWordPart_iff, isWordStart_smallUnit, isDigit_smallUnit]

theorem not_isLetter_of_isDigit {u : CodeUnit} (h : isDigit u) : isLetter u = false := by
  rw [Bool.eq_false_iff]
  intro letter
  have := isLetter_iff.mp letter
  have := isDigit_iff.mp h
  omega

/-- Blanks are no letters, so they stay as they are. -/
theorem not_isLetter_of_isBlank {u : CodeUnit} (h : isBlank u) : isLetter u = false := by
  rw [Bool.eq_false_iff]
  intro letter
  have range := isLetter_iff.mp letter
  have part : isWordPart u := isWordPart_iff.mpr (.inl (isWordStart_iff.mpr (by omega)))
  rw [not_isBlank_of_isWordPart part] at h
  cases h

/-! ### Lexemes -/

/-- The kinds of words. -/
def TokenKind.isWord : TokenKind → Bool
  | .identifier | .keyword _ => true
  | _ => false

/-- Words are ASCII, so putting them in small letters is a matter of single units. -/
theorem Text.IsWord.isAscii {text : Text} (h : text.IsWord) : text.IsAscii := by
  intro u hu
  rcases isWordPart_iff.mp (h.parts u hu) with start | digit
  · have := isWordStart_iff.mp start
    omega
  · have := isDigit_iff.mp digit
    omega

section

variable {kind : TokenKind} {value text text' rest rest' : Text}

/-- A word with the case of its letters changed is a word. -/
theorem Text.IsWord.recased (h : text.IsWord) (letters : SameLetters text text') :
    text'.IsWord := by
  obtain ⟨u, rest, rfl, hu, hr⟩ := h
  obtain ⟨v, rest', rfl, same, letters⟩ := letters.cons_left
  refine ⟨v, rest', rfl, ?_, letters.forall_mem isWordPart_smallUnit hr⟩
  rw [← isWordStart_smallUnit, ← same, isWordStart_smallUnit]
  exact hu

/-- A lexeme that is neither a word nor a string has no letters. -/
theorem Spells.no_letter (h : Spells kind value text) (hw : kind.isWord = false)
    (hs : kind ≠ .string) : ∀ u ∈ text, isLetter u = false := by
  have digits : ∀ {digits : Text}, (∀ u ∈ digits, isDigit u) → ∀ u ∈ digits, isLetter u = false :=
    fun hd u hu => not_isLetter_of_isDigit (hd u hu)
  cases h with
  | @mark kind c hc =>
    have bare : ∀ m ∈ marks, isLetter (unit m.2) = false := by decide
    exact List.forall_mem_singleton.mpr (bare (kind, c) hc)
  | symbol op =>
    have bare : (ofString op.symbol).all fun u => !isLetter u := by cases op <;> decide
    simpa using bare
  | keyword | identifier => cases hw
  | integer hn => exact digits hn.2
  | decimal hf =>
    obtain ⟨whole, fraction, hw, hf, rfl⟩ := hf
    rw [List.forall_mem_append, List.forall_mem_cons]
    exact ⟨digits hw.2, by decide, digits hf.2⟩
  | string => exact absurd rfl hs

/-- A lexeme with the case of its letters changed is one of the same kind; a string must not be
changed. -/
theorem Spells.recased (h : Spells kind value text) (letters : SameLetters text text')
    (hs : kind = .string → text' = text) :
    ∃ value', Spells kind value' text' ∧ value'.lower = value.lower ∧
      (kind.isWord = false ∨ text' = text → value' = value) := by
  cases word : kind.isWord with
  | false =>
    -- no letter in it can have changed
    obtain rfl : text' = text := by
      by_cases hk : kind = .string
      · exact hs hk
      · exact letters.eq_of_no_letter (h.no_letter word hk)
    exact ⟨value, h, rfl, fun _ => rfl⟩
  | true =>
    cases h with
    | keyword hw hk =>
      have lower := letters.lower_eq hw.isAscii (hw.recased letters).isAscii
      exact ⟨text', .keyword (hw.recased letters) (lower ▸ hk), lower.symm, by simp⟩
    | identifier hw hk =>
      have lower := letters.lower_eq hw.isAscii (hw.recased letters).isAscii
      exact ⟨text', .identifier (hw.recased letters) (lower ▸ hk), lower.symm, by simp⟩
    | mark hc =>
      have bare : ∀ m ∈ marks, m.1.isWord = false := by decide
      rw [bare _ hc] at word
      cases word
    | _ => cases word

/-- What may stand behind a lexeme may do so with the case of its letters changed. -/
theorem Bounded.recased (h : Bounded kind rest) (letters : SameLetters rest rest') :
    Bounded kind rest' := by
  have part (hr : ∀ u ∈ rest.head?, isWordPart u = false) :
      ∀ u ∈ rest'.head?, isWordPart u = false :=
    SameLetters.forall_head (fun u => by
      rw [Bool.eq_false_iff, Bool.eq_false_iff, ne_eq, ne_eq, isWordPart_smallUnit]) letters hr
  have digit (hr : ∀ u ∈ rest.head?, isDigit u = false) : ∀ u ∈ rest'.head?, isDigit u = false :=
    SameLetters.forall_head (fun u => by
      rw [Bool.eq_false_iff, Bool.eq_false_iff, ne_eq, ne_eq, isDigit_smallUnit]) letters hr
  have equals (hr : rest.head? ≠ some (unit '=')) : rest'.head? ≠ some (unit '=') := by
    intro hr'
    obtain ⟨tail, rfl⟩ := List.head?_eq_some_iff.mp hr'
    obtain ⟨u, tail', rfl, same, -⟩ := letters.symm.cons_left
    exact hr (congrArg some (eq_of_smallUnit_eq same.symm (by decide)))
  cases kind with
  | identifier | keyword => exact part h
  | integer =>
    refine ⟨digit h.1, ?_⟩
    rintro u tail rfl
    obtain ⟨point, tail', rfl, isPoint, letters⟩ := letters.symm.cons_left
    obtain ⟨v, tail'', rfl, same, -⟩ := letters.cons_left
    obtain rfl : point = unit '.' := eq_of_smallUnit_eq isPoint.symm (by decide)
    have behind := h.2 v tail'' rfl
    rwa [Bool.eq_false_iff, ne_eq, ← isDigit_smallUnit, ← same, isDigit_smallUnit, ← ne_eq,
      ← Bool.eq_false_iff] at behind
  | decimal => exact digit h
  | comparison op =>
    cases op with
    | less | greater => exact equals h
    | _ => trivial
  | _ => trivial

end

/-! ### Runs -/

/-- The second token is the first one with the case of some letters changed: it has the same kind
and position, and the same value in small letters.  Only the values of words change, and of these
only the ones that are not kept. -/
structure Token.Recased (kept : Token → Prop) (t t' : Token) : Prop where
  kind : t'.kind = t.kind
  position : t'.position = t.position
  lower : t'.value.lower = t.value.lower
  same : t.kind.isWord = false ∨ kept t → t'.value = t.value

/-- **Changing case changes no token's kind or place.**  A run through a source leads through any
other one with the same letters in which strings and kept words are spelled as they were. -/
theorem Run.recased {kept : Token → Prop} {source source' text left : Text} {position stop : Nat}
    {tokens : List Token} (h : Run position text tokens stop left)
    (hs : source.drop position = text) (letters : SameLetters source source')
    (hk : ∀ t ∈ tokens, t.kind = .string ∨ kept t → t.covered source <+: source'.drop t.position) :
    ∃ tokens', List.Forall₂ (Token.Recased kept) tokens tokens' ∧
      Run position (source'.drop position) tokens' stop (source'.drop stop) := by
  induction h with
  | refl position text => exact ⟨[], .nil, .refl _ _⟩
  | @blank position stop u rest left tokens hu _ ih =>
    have next : source.drop (position + 1) = rest := by
      rw [← List.drop_drop, hs]
      rfl
    obtain ⟨tokens', each, run⟩ := ih next hk
    obtain ⟨v, rest', here, same, -⟩ := (hs ▸ letters.drop position).cons_left
    obtain rfl : v = u := eq_of_smallUnit_eq same.symm (not_isLetter_of_isBlank hu)
    rw [← List.drop_drop, here] at run
    exact ⟨tokens', each, here ▸ .blank hu run⟩
  | @lexeme position stop kind value text rest left tokens hl _ ih =>
    have next : source.drop (position + text.length) = rest := by
      rw [← List.drop_drop, hs, List.drop_left]
    rw [List.forall_mem_cons] at hk
    obtain ⟨tokens', each, run⟩ := ih next hk.2
    obtain ⟨text', rest', here, letters, lettersBehind⟩ :=
      (hs ▸ letters.drop position).append_left
    -- a lexeme that is kept stands in the second source as it does in the first
    have unchanged : kind = .string ∨ kept ⟨kind, value, position⟩ → text' = text := by
      intro hkept
      have stands := hk.1 hkept
      rw [hl.covered hs, here] at stands
      exact ((List.prefix_of_prefix_length_le stands (List.prefix_append text' rest')
        (Nat.le_of_eq letters.length_eq)).eq_of_length letters.length_eq).symm
    obtain ⟨value', spells, lower, same⟩ := hl.spells.recased letters fun hk => unchanged (.inl hk)
    refine ⟨⟨kind, value', position⟩ :: tokens', .cons ⟨rfl, rfl, lower, ?_⟩ each, ?_⟩
    · exact fun hkept => same (hkept.imp_right fun hk => unchanged (.inr hk))
    · rw [← List.drop_drop, here, letters.length_eq, List.drop_left] at run
      rw [here]
      exact .lexeme (longest_iff.mpr ⟨spells, hl.bounded.recased lettersBehind⟩) run

end PhotoQuery
