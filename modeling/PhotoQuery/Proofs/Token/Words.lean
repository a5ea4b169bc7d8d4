import PhotoQuery.Proofs.Token.Boundary

/-!
# Token — words

A token without its position is a word.  `Word.text` writes a word as a lexeme, a string between
quotes and with a backslash before what needs one, and any other word as its value.

Words with single spaces between them are a source, and its tokens are these words again
(`tokenize_written`): a blank is a barrier, so no lexeme goes on with it.
-/

namespace PhotoQuery

open Text

/-- The kind and the value of a token. -/
structure Word where
  kind : TokenKind
  value : Text
deriving DecidableEq

/-- The token without its position. -/
def Token.word (t : Token) : Word := ⟨t.kind, t.value⟩

/-- The text with a backslash before every backslash and every quote. -/
def escape (quote : CodeUnit) (text : Text) : Text :=
  text.flatMap fun u => if u = quote ∨ u = unit '\\' then [unit '\\', u] else [u]

namespace Word

/-- The word as it is written, with this unit for a quote. -/
def text (quote : CodeUnit) (w : Word) : Text :=
  if w.kind = .string then quote :: escape quote w.value ++ [quote] else w.value

/-- The words as they are written, with single spaces between them. -/
def written (quote : CodeUnit) (words : List Word) : Text := join " " (words.map (text quote))

end Word

/-! ### Quoting -/

/-- What needs a backslash stands for itself behind one. -/
theorem unescape_ne {u : CodeUnit} (h : isQuote u ∨ u = unit '\\') :
    u ≠ unit 'n' ∧ u ≠ unit 'r' ∧ u ≠ unit 't' := by
  simp only [isQuote, Bool.or_eq_true, decide_eq_true_eq] at h
  rcases h with (rfl | rfl) | rfl <;> decide

/-- What is escaped can stand between the quotes, and denotes what it was. -/
theorem stringBody_escape {quote : CodeUnit} (hq : isQuote quote) (value : Text) :
    StringBody quote (escape quote value) value := by
  induction value with
  | nil => exact .nil
  | cons u value ih =>
    rw [escape, List.flatMap_cons]
    split
    · rename_i special
      have kept : isQuote u ∨ u = unit '\\' := special.imp_left (by rintro rfl; exact hq)
      obtain ⟨hn, hr, ht⟩ := unescape_ne kept
      exact .kept hn hr ht ih
    · rename_i plain
      obtain ⟨hu, hb⟩ := not_or.mp plain
      exact .plain hu hb ih

/-- A word that is not a string can be written if it is a lexeme, and a string always. -/
theorem Word.spells {quote : CodeUnit} (hq : isQuote quote) {w : Word}
    (h : w.kind = .string ∨ Spells w.kind w.value w.value) :
    Spells w.kind w.value (w.text quote) := by
  by_cases hk : w.kind = .string
  · rw [Word.text, if_pos hk, hk]
    exact .string hq (stringBody_escape hq w.value)
  · rw [Word.text, if_neg hk]
    exact h.resolve_left hk

/-! ### Words with spaces between them -/

/-- Written words start with the first one and a space, and go on with the others. -/
theorem Word.written_cons_cons (quote : CodeUnit) (w w' : Word) (words : List Word) :
    written quote (w :: w' :: words) = w.text quote ++ unit ' ' :: written quote (w' :: words) := by
  simp only [written, join, List.map_cons, List.intercalate_cons_cons, List.append_assoc]
  rfl

/-- A run leads through written words, and finds them. -/
theorem exists_run_written {quote : CodeUnit} {words : List Word}
    (h : ∀ w ∈ words, Spells w.kind w.value (w.text quote)) (position : Nat) :
    ∃ tokens stop, tokens.map Token.word = words ∧
      Run position (Word.written quote words) tokens stop [] := by
  induction words generalizing position with
  | nil => exact ⟨[], position, rfl, .refl position []⟩
  | cons w words ih =>
    rw [List.forall_mem_cons] at h
    obtain ⟨spells, others⟩ := h
    cases words with
    | nil =>
      have alone : Word.written quote [w] = w.text quote ++ [] := by
        simp [Word.written, join]
      rw [alone]
      exact ⟨[⟨w.kind, w.value, position⟩], _, rfl,
        .lexeme (spells.longest barrier_nil) (.refl _ [])⟩
    | cons w' words =>
      -- a space stands before the next word, so the lexeme cannot go on
      have before : Barrier (unit ' ' :: Word.written quote (w' :: words)) :=
        barrier_blank (by decide) _
      obtain ⟨tokens, stop, rest, run⟩ := ih others (position + (w.text quote).length + 1)
      refine ⟨⟨w.kind, w.value, position⟩ :: tokens, stop, ?_, ?_⟩
      · rw [List.map_cons, rest]
        rfl
      · rw [Word.written_cons_cons]
        exact .lexeme (spells.longest before) (.blank (by decide) run)

/-- **The tokens of written words** are these words, and then the end. -/
theorem tokenize_written {quote : CodeUnit} {words : List Word}
    (h : ∀ w ∈ words, Spells w.kind w.value (w.text quote)) :
    ∃ tokens, tokens.map Token.word = words ∧ tokenize (Word.written quote words) =
      .ok (tokens ++ [⟨.eof, [], (Word.written quote words).length⟩]) := by
  obtain ⟨tokens, stop, same, run⟩ := exists_run_written h 0
  obtain rfl : stop = (Word.written quote words).length := by simpa using run.stop_eq
  exact ⟨tokens, same, tokenize_of_run run⟩

end PhotoQuery
