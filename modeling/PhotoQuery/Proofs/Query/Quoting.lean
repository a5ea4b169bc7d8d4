import PhotoQuery.Proofs.Query.Composition

/-!
# Query — quoting

Every string can be written between quotes, and most strings in many ways.  A character stands for
itself, unless it is the quote or a backslash; behind a backslash it stands for itself, unless it is
`n`, `r` or `t`; and these three, behind a backslash, stand for a newline, a return and a tab.
`Encodes` leaves the choice to each character.

However a string is written, the literal is one token, whose value is the string, and `filename ==`
in front of it asks for the photos of that name (`Encodes.read_quoted`).
-/

namespace PhotoQuery

open Text Outcome Grammar

/-- The text writes the characters, to be put between two of the quotes. -/
inductive Encodes (quote : Char) : Text → List Char → Prop where
  | nil : Encodes quote [] []
  | plain {c : Char} {text : Text} {cs : List Char} (hq : c ≠ quote) (hb : c ≠ '\\')
      (h : Encodes quote text cs) : Encodes quote (ofPoint c.toNat ++ text) (c :: cs)
  | kept {c : Char} {text : Text} {cs : List Char} (hn : c ≠ 'n') (hr : c ≠ 'r') (ht : c ≠ 't')
      (h : Encodes quote text cs) :
      Encodes quote (unit '\\' :: (ofPoint c.toNat ++ text)) (c :: cs)
  | newline {text : Text} {cs : List Char} (h : Encodes quote text cs) :
      Encodes quote (unit '\\' :: unit 'n' :: text) ('\n' :: cs)
  | carriage {text : Text} {cs : List Char} (h : Encodes quote text cs) :
      Encodes quote (unit '\\' :: unit 'r' :: text) ('\r' :: cs)
  | tab {text : Text} {cs : List Char} (h : Encodes quote text cs) :
      Encodes quote (unit '\\' :: unit 't' :: text) ('\t' :: cs)

/-! ### Characters and their units -/

/-- A character is written as a unit that no other ASCII character has, and maybe another unit that
no ASCII character has at all. -/
theorem exists_ofPoint (c : Char) : ∃ u rest, ofPoint c.toNat = u :: rest ∧
    (∀ a : Char, a.toNat < 0x80 → u = unit a → c = a) ∧
    ∀ v ∈ rest, ∀ a : Char, a.toNat < 0x80 → v ≠ unit a := by
  have ascii : ∀ a : Char, a.toNat < 0x80 → (unit a).toNat = a.toNat :=
    fun a ha => toNat_unit (by omega)
  by_cases small : c.toNat < 0x10000
  · refine ⟨unit c, [], by rw [ofPoint, if_pos small]; rfl, fun a ha same => ?_, by simp⟩
    have value := congrArg UInt16.toNat same
    rw [ascii a ha, toNat_unit small] at value
    exact Char.toNat_inj.mp value
  · -- both surrogates lie far above the ASCII characters
    have surrogate : ∀ p : Nat, 0xD800 ≤ p → p < 0x10000 → ∀ a : Char, a.toNat < 0x80 →
        UInt16.ofNat p ≠ unit a := by
      intro p low high a ha same
      have value := congrArg UInt16.toNat same
      rw [ascii a ha, UInt16.toNat_ofNat_of_lt' high] at value
      omega
    have top : c.toNat < 0x110000 := by
      rcases c.valid with h | h
      · exact Nat.lt_trans h (by decide)
      · exact h.2
    refine ⟨_, _, by rw [ofPoint, if_neg small], fun a ha same => ?_, fun v hv a ha => ?_⟩
    · exact absurd same (surrogate _ (by omega) (by omega) a ha)
    · rw [List.mem_singleton.mp hv]
      exact surrogate _ (by omega) (by omega) a ha

/-- Units that need no backslash stand for themselves. -/
theorem StringBody.append {quote : CodeUnit} {plain body value : Text}
    (hp : ∀ u ∈ plain, u ≠ quote ∧ u ≠ unit '\\') (h : StringBody quote body value) :
    StringBody quote (plain ++ body) (plain ++ value) := by
  induction plain with
  | nil => exact h
  | cons u plain ih =>
    rw [List.forall_mem_cons] at hp
    exact .plain hp.1.1 hp.1.2 (ih hp.2)

/-- What is encoded can stand between the quotes, and denotes the characters. -/
theorem Encodes.stringBody {quote : Char} {text : Text} {cs : List Char}
    (h : Encodes quote text cs) (hq : quote.toNat < 0x80) :
    StringBody (unit quote) text (ofPoints (cs.map Char.toNat)) := by
  have backslash : '\\'.toNat < 0x80 := by decide
  induction h with
  | nil => exact .nil
  | @plain c _ _ different proper _ ih =>
    refine ih.append ?_
    obtain ⟨u, rest, units, first, others⟩ := exists_ofPoint c
    rw [units, List.forall_mem_cons]
    exact ⟨⟨fun same => different (first _ hq same), fun same => proper (first _ backslash same)⟩,
      fun v hv => ⟨others v hv _ hq, others v hv _ backslash⟩⟩
  | @kept c _ _ hn hr ht _ ih =>
    obtain ⟨u, rest, units, first, others⟩ := exists_ofPoint c
    rw [List.map_cons, ofPoints, List.flatMap_cons, units]
    exact .kept (fun same => hn (first 'n' (by decide) same))
      (fun same => hr (first 'r' (by decide) same)) (fun same => ht (first 't' (by decide) same))
      (ih.append fun v hv => ⟨others v hv _ hq, others v hv _ backslash⟩)
  | newline _ ih => exact .newline ih
  | carriage _ ih => exact .carriage ih
  | tab _ ih => exact .tab ih

/-! ### Literals -/

/-- A string literal is one token, and what it denotes is its value. -/
theorem StringBody.tokenize {quote : CodeUnit} (hq : isQuote quote) {body value : Text}
    (h : StringBody quote body value) :
    PhotoQuery.tokenize (quote :: body ++ [quote]) =
      .ok [⟨.string, value, 0⟩, ⟨.eof, [], (quote :: body ++ [quote]).length⟩] := by
  have longest : Longest .string value (quote :: body ++ [quote]) [] :=
    Spells.longest (.string hq h) barrier_nil
  have run : Run 0 (quote :: body ++ [quote] ++ []) [⟨.string, value, 0⟩]
      (0 + (quote :: body ++ [quote]).length) [] := .lexeme longest (.refl _ _)
  rw [List.append_nil, Nat.zero_add] at run
  exact tokenize_of_run run

/-- The comparison of the file name with a string. -/
theorem Expr.predicate_filename (value : Text) :
    ∃ holds, predicate (.comparison .equal 0 (.property [ofString "filename"] 0)
        (.constant (.string value) 0)) = .ok holds ∧
      ∀ photo, holds photo = decide (photo.filename = value) := by
  have filename : compile (.property [ofString "filename"] 0) =
      .ok ⟨.string fun photo => some photo.filename, false, 0⟩ := rfl
  have compared : predicate (.comparison .equal 0 (.property [ofString "filename"] 0)
      (.constant (.string value) 0)) =
        .ok fun photo => some (compare photo.filename value).isEq == some true := by
    rw [predicate, compile, filename, ok_bind, compile, ok_bind]
    rfl
  refine ⟨_, compared, fun photo => ?_⟩
  calc (some (compare photo.filename value).isEq == some true)
      = (compare photo.filename value).isEq := beq_true _
    _ = decide (photo.filename = value) := by
      rw [Bool.eq_iff_iff, Ordering.isEq_iff_eq_eq, Std.compare_eq_iff_eq, decide_eq_true_iff]

/-- `filename == ` and a string literal ask for the photos of that name. -/
theorem StringBody.tests_filename {quote : CodeUnit} (hq : isQuote quote) {body value : Text}
    (h : StringBody quote body value) :
    Tests (ofString "filename == " ++ (quote :: body ++ [quote]))
      fun photo => photo.filename = value := by
  have name : (ofString "filename").IsName := by decide
  have literal : Writes (quote :: body ++ [quote]) [⟨.string, value⟩] :=
    .ofLexeme fun _ => longest_iff.mpr ⟨.string hq h, trivial⟩
  have writes := (Writes.spaced (.identifier name.1 name.2) (by decide : isBlank (unit ' '))).append
    ((Writes.spaced (.symbol .equal) (by decide : isBlank (unit ' '))).append literal)
  have property : Reads .primary (Word.path [ofString "filename"]) _ 0 :=
    .property (List.cons_ne_nil _ [])
  have reads := (property.comparison .equal
    (@Reads.constant (fun _ => []) _ (.string value))).disjunction
  obtain ⟨holds, tested, same⟩ := Expr.predicate_filename value
  have erased : (Expr.comparison .equal 0 (.property [ofString "filename"] 0)
      (.constant (.string value) 0)).erase = .comparison .equal 0
        (.property [ofString "filename"] 0) (.constant (.string value) 0) := by
    simp only [Expr.erase]
  rw [← erased] at reads
  exact (tests_of_reads writes reads (Nat.zero_le _) tested).of_eq same

/-- **Every string can be quoted.**  However its characters are written between two like quotes, the
literal is one token, whose value is the string, and then the end; and `filename ==` in front of it
is a source for exactly the photos that have the string as their name. -/
theorem Encodes.read_quoted {quote : Char} (hq : quote = '"' ∨ quote = '\'') {text : Text}
    {s : String} (h : Encodes quote text s.toList) :
    PhotoQuery.tokenize (unit quote :: text ++ [unit quote]) =
        .ok [⟨.string, ofString s, 0⟩, ⟨.eof, [], (unit quote :: text ++ [unit quote]).length⟩] ∧
      Tests (ofString "filename == " ++ (unit quote :: text ++ [unit quote]))
        fun photo => photo.filename = ofString s := by
  have ascii : quote.toNat < 0x80 ∧ isQuote (unit quote) := by
    rcases hq with rfl | rfl <;> decide
  have body := h.stringBody ascii.1
  exact ⟨body.tokenize ascii.2, body.tests_filename ascii.2⟩

/-- `a'`, a newline and an emoji, in single quotes: the quote and, without need, the emoji stand
behind a backslash, and the newline is written as `n`. -/
theorem Encodes.read_quoted_emoji :
    let text := ofString "a\\'\\n\\😀"
    let s := "a'\n😀"
    Encodes '\'' text s.toList ∧
      PhotoQuery.tokenize (unit '\'' :: text ++ [unit '\'']) =
        .ok [⟨.string, ofString s, 0⟩, ⟨.eof, [], 10⟩] ∧
      Tests (ofString "filename == " ++ (unit '\'' :: text ++ [unit '\'']))
        fun photo => photo.filename = ofString s := by
  intro text s
  have chars : s.toList = ['a', '\'', '\n', '😀'] := by decide
  have encodes : Encodes '\'' text s.toList := by
    rw [chars]
    exact .plain (by decide) (by decide) <| .kept (by decide) (by decide) (by decide) <|
      .newline <| .kept (by decide) (by decide) (by decide) .nil
  exact ⟨encodes, encodes.read_quoted (.inr rfl)⟩

end PhotoQuery
