import PhotoQuery.Proofs.Token.Concatenation
import PhotoQuery.Proofs.Token.Words

/-!
# Token — texts inside sources

Inside a longer source, a text is read as it is alone, up to positions, if what stands behind it
goes on none of its lexemes.  `Writes text words` says that a text takes care of this itself: it is
read as the words wherever it stands and whatever is behind it.  Such texts, one behind the other,
are read as their words, one behind the other (`Writes.append`), and a source of its own is such a
text once a parenthesis closes it (`Writes.closed`).
-/

namespace PhotoQuery

open Text

/-- A token keeps its word where it is moved to. -/
theorem Token.map_word_shift (n : Nat) (tokens : List Token) :
    (tokens.map (shift n)).map word = tokens.map word :=
  List.map_map

/-! ### Texts -/

/-- The text is read as the words, wherever it stands and whatever is behind it. -/
def Writes (text : Text) (words : List Word) : Prop :=
  ∀ position rest, ∃ tokens stop, tokens.map Token.word = words ∧
    Run position (text ++ rest) tokens stop rest

namespace Writes

variable {text text' : Text} {words words' : List Word}

/-- Texts one behind the other are read as their words, one behind the other. -/
theorem append (h : Writes text words) (h' : Writes text' words') :
    Writes (text ++ text') (words ++ words') := by
  intro position rest
  obtain ⟨tokens, middle, rfl, run⟩ := h position (text' ++ rest)
  obtain ⟨tokens', stop, rfl, run'⟩ := h' middle rest
  refine ⟨tokens ++ tokens', stop, List.map_append, ?_⟩
  rw [List.append_assoc]
  exact run.trans run'

theorem blank {u : CodeUnit} (hu : isBlank u) : Writes [u] [] :=
  fun position rest => ⟨[], position + 1, rfl, .blank hu (.refl _ rest)⟩

/-- A lexeme that goes on with nothing is read as its word. -/
theorem ofLexeme {kind : TokenKind} {value : Text} (h : ∀ rest, Longest kind value text rest) :
    Writes text [⟨kind, value⟩] :=
  fun position rest => ⟨[⟨kind, value, position⟩], _, rfl, .lexeme (h rest) (.refl _ rest)⟩

theorem mark {kind : TokenKind} {c : Char} (h : (kind, c) ∈ marks) :
    Writes [unit c] [⟨kind, [unit c]⟩] := by
  refine ofLexeme fun rest => longest_iff.mpr ⟨.mark h, ?_⟩
  simp only [marks, List.mem_cons, Prod.mk.injEq, List.not_mem_nil, or_false] at h
  rcases h with ⟨rfl, -⟩ | ⟨rfl, -⟩ | ⟨rfl, -⟩ | ⟨rfl, -⟩ | ⟨rfl, -⟩ <;> trivial

/-- A lexeme with a blank behind it is read as its word. -/
theorem spaced {kind : TokenKind} {value : Text} (h : Spells kind value text) {u : CodeUnit}
    (hu : isBlank u) : Writes (text ++ [u]) [⟨kind, value⟩] := by
  intro position rest
  refine ⟨[⟨kind, value, position⟩], position + text.length + 1, rfl, ?_⟩
  rw [List.append_assoc]
  exact .lexeme (h.longest (barrier_blank hu rest)) (.blank hu (.refl _ rest))

/-- A source with a closing parenthesis behind it is read as its words and the parenthesis. -/
theorem closed {source : Text} {body : List Token} (h : Run 0 source body source.length []) :
    Writes (source ++ [unit ')']) (body.map Token.word ++ [⟨.rightParen, [unit ')']⟩]) := by
  intro position rest
  have run := (h.append (barrier_closing rest)).shift position
  rw [Nat.zero_add] at run
  obtain ⟨tokens', stop, same', run'⟩ :=
    mark (by decide : (.rightParen, ')') ∈ marks) (source.length + position) rest
  refine ⟨body.map (.shift position) ++ tokens', stop, ?_, ?_⟩
  · rw [List.map_append, Token.map_word_shift, same']
  · rw [List.append_assoc]
    exact run.trans run'

/-- The tokens of a source that is read as the words. -/
theorem exists_run (h : Writes text words) :
    ∃ body, body.map Token.word = words ∧ Run 0 text body text.length [] := by
  obtain ⟨body, stop, same, run⟩ := h 0 []
  rw [List.append_nil] at run
  obtain rfl : stop = text.length := by simpa using run.stop_eq
  exact ⟨body, same, run⟩

end Writes

end PhotoQuery
