import PhotoQuery.Diagnosis
import PhotoQuery.Proofs.Grammar.Places
import PhotoQuery.Proofs.Grammar.Positions
import PhotoQuery.Proofs.Query.Source

/-!
# Query — refused sources

A source that is not a query is refused with a diagnosis of the first stage that fails
(`CompiledQuery.ofSource_eq_lexical_iff`, `CompiledQuery.ofSource_eq_syntactic_iff`), and the
diagnosis is located in the source (`Diagnosis.Accurate`, `CompiledQuery.ofSource_located`):

* a lexical error stands at the unit where no lexeme starts, in front of the end;
* a syntax error stands at a token or at the end, where the grammar looked for something else, and
  at the start only if there is nothing to read;
* a semantic error stands at a token, which a node of the tree or the sort clause was read from.

For syntax errors, reading is compared with itself: tokens are alike to themselves under the
relation that a position is one of theirs, so the errors are at such positions.
-/

namespace PhotoQuery

open Text Outcome Grammar

/-! ### Syntax errors -/

/-- Only an empty expression is worded as one. -/
theorem SyntaxError.reason_eq_empty {cause : SyntaxError}
    (h : cause.reason = ofString "Empty filter expression") : cause = .emptyExpression := by
  have differ : cause ≠ .emptyExpression →
      cause.reason.take 2 ≠ (ofString "Empty filter expression").take 2 := by
    intro other
    cases cause with
    | emptyExpression => exact absurd rfl other
    | expectedExpression | unexpectedToken | unclosedArguments =>
      rw [reason, List.take_append_of_le_length (by decide)]
      decide
    | limitTooLarge | integerTooLarge =>
      rw [reason, List.append_assoc, List.take_append_of_le_length (by decide)]
      decide
    | _ => decide
  exact Decidable.byContradiction fun other => differ other (by rw [h])

/-- A syntax error stands at a token or at the end, and an empty expression at the start. -/
theorem TokenStream.query_error {stream : TokenStream} {e : Located SyntaxError}
    (h : stream.query = .error e) :
    (e.position = 0 ∧ e.cause = .emptyExpression) ∨ (e.cause ≠ .emptyExpression ∧
      (e.position = stream.stop ∨ ∃ t ∈ stream.tokens, t.position = e.position)) := by
  -- the relations that positions have with themselves
  let R : Nat → Nat → Prop := fun p _ => ∃ t ∈ stream.tokens, t.position = p
  let T : Nat → Nat → Prop := fun p p' => p = stream.stop ∨ R p p'
  have places : Places R T stream.stop stream.stop := ⟨.inr, .inl rfl⟩
  have alike : Token.AllAlike R stream.tokens stream.tokens :=
    List.forall₂_same.mpr fun t ht => ⟨rfl, rfl, t, ht, rfl⟩
  have read := stream.queryWithin_alike places alike maxNestingDepth
  rw [← TokenStream.query, h] at read
  cases read with
  | error fault =>
    cases fault with
    | empty => exact .inl ⟨rfl, rfl⟩
    | placed hc hp => exact .inr ⟨hc, hp⟩

/-! ### Semantic errors -/

/-- A wrong path is reported where its sort clause stands. -/
theorem Query.ranking?_error {q : Query} {p : Problem} (h : q.ranking? = .error p) :
    ∃ clause ∈ q.sort, ∃ cause, p = .semantic ⟨clause.position, cause⟩ := by
  unfold Query.ranking? at h
  split at h
  · cases h
  · rename_i clause sort
    cases ranked : Ranking.ofClause clause with
    | ok ranking => rw [ranked] at h; cases h
    | error cause =>
      rw [ranked] at h
      cases h
      exact ⟨clause, sort, cause, rfl⟩

/-- A derived query that cannot be compiled is refused at one of its tokens. -/
theorem Query.compile_error {body : List Token} {last : Token} {q : Query} {n : Nat}
    (derives : DerivesQuery (body ++ [last]) q n) {p : Problem} (h : q.compile = .error p) :
    ∃ t ∈ body, ∃ cause, p = .semantic ⟨t.position, cause⟩ := by
  generalize whole : body ++ [last] = tokens at derives
  cases derives with
  | mk selection sorting limiting =>
    obtain ⟨rfl, -⟩ := List.append_inj' whole rfl
    rcases bind_eq_error.mp h with tested | ⟨holds, -, h⟩
    · cases selection with
      | all => cases tested
      | some derives =>
        obtain ⟨t, ht, located⟩ := derives.standsOn.predicate_error tested
        exact ⟨t, List.mem_append_left _ ht, located⟩
    rcases bind_eq_error.mp h with ranked | ⟨ranking, -, h⟩
    · obtain ⟨clause, hclause, cause, rfl⟩ := Query.ranking?_error ranked
      obtain ⟨t, ht, -, position⟩ := (sorting.readOff clause hclause).exists_sort
      exact ⟨t, List.mem_append_right _ (List.mem_append_left _ ht), cause, by rw [position]⟩
    · cases h

/-! ### Stages -/

/-- The stage is the first one that can refuse the source: its text is not made of lexemes; or it
is, and its tokens are not a query; or they are one, and only its meaning is left to be refused. -/
inductive FirstRefusal (source : Text) : Stage → Prop where
  | lexical {e : Located LexicalError} (h : tokenize source = .error e) :
      FirstRefusal source .lexical
  | syntactic {tokens : List Token} {stream : TokenStream} {e : Located SyntaxError}
      (ht : tokenize source = .ok tokens) (hs : TokenStream.ofTokens? tokens = some stream)
      (h : stream.query = .error e) : FirstRefusal source .syntactic
  | semantic {tokens : List Token} {stream : TokenStream} {q : Query}
      (ht : tokenize source = .ok tokens) (hs : TokenStream.ofTokens? tokens = some stream)
      (h : stream.query = .ok q) : FirstRefusal source .semantic

/-- A source has one list of tokens, and a list of tokens is one stream. -/
theorem stream_unique {source : Text} {tokens tokens' : List Token} {stream stream' : TokenStream}
    (ht : tokenize source = .ok tokens) (hs : TokenStream.ofTokens? tokens = some stream)
    (ht' : tokenize source = .ok tokens') (hs' : TokenStream.ofTokens? tokens' = some stream') :
    stream = stream' := by
  obtain rfl := Except.ok.inj (ht.symm.trans ht')
  exact Option.some.inj (hs.symm.trans hs')

/-- There is only one first stage that can refuse a source. -/
theorem FirstRefusal.unique {source : Text} {stage stage' : Stage}
    (h : FirstRefusal source stage) (h' : FirstRefusal source stage') : stage = stage' := by
  -- a later stage is reached only where the earlier ones have succeeded
  cases h with
  | lexical h =>
    cases h' with
    | lexical => rfl
    | syntactic ht | semantic ht => cases h.symm.trans ht
  | syntactic ht hs h =>
    cases h' with
    | lexical h' => cases h'.symm.trans ht
    | syntactic => rfl
    | semantic ht' hs' h' =>
      obtain rfl := stream_unique ht hs ht' hs'
      cases h.symm.trans h'
  | semantic ht hs h =>
    cases h' with
    | lexical h' => cases h'.symm.trans ht
    | syntactic ht' hs' h' =>
      obtain rfl := stream_unique ht hs ht' hs'
      cases h.symm.trans h'
    | semantic => rfl

/-! ### Diagnoses -/

/-- The diagnosis is of the source and of the first stage that can refuse it, and it is located
there. -/
structure Diagnosis.Accurate (source : Text) (d : Diagnosis) : Prop where
  source_eq : d.source = source
  position_le : d.position ≤ source.length
  stage_iff : ∀ stage, d.stage = stage ↔ FirstRefusal source stage
  lexical : d.stage = .lexical → d.position < source.length ∧
    ∃ u cause, source[d.position]? = some u ∧ StopsAt source ⟨d.position, cause⟩ ∧
      d.reason = cause.reason ∧ d.reason = if isQuote u then ofString "Unterminated string"
        else ofString "Unexpected character " ++ quoted [u]
  syntactic : d.stage = .syntactic →
    if d.reason = ofString "Empty filter expression" then d.position = 0
    else ∃ tokens, tokenize source = .ok tokens ∧ ∃ t ∈ tokens, t.position = d.position
  semantic : d.stage = .semantic → ∃ tokens, tokenize source = .ok tokens ∧
    ∃ t ∈ tokens, t.kind ≠ .eof ∧ t.position = d.position

theorem FirstRefusal.iff {source : Text} {stage : Stage} (h : FirstRefusal source stage) :
    ∀ stage', stage = stage' ↔ FirstRefusal source stage' :=
  fun _ => ⟨fun same => same ▸ h, h.unique⟩

/-- The diagnosis of a lexical error is accurate. -/
theorem Diagnosis.accurate_lexical {source : Text} {e : Located LexicalError}
    (h : StopsAt source e) :
    Diagnosis.Accurate source ⟨.lexical, e.cause.reason, e.position, source⟩ := by
  obtain ⟨u, here, -, reason⟩ := h.reason
  have inside : e.position < source.length := (List.getElem?_eq_some_iff.mp here).1
  have first : FirstRefusal source .lexical := .lexical (tokenize_of_stopsAt h)
  exact ⟨rfl, Nat.le_of_lt inside, first.iff, fun _ => ⟨inside, u, e.cause, here, h, rfl, reason⟩,
    nofun, nofun⟩

section

variable {source : Text} {body : List Token}

/-- The diagnosis of a syntax error in a source of lexemes is accurate. -/
theorem Diagnosis.accurate_syntactic (run : Run 0 source body source.length [])
    {e : Located SyntaxError} (h : TokenStream.query ⟨body, source.length⟩ = .error e) :
    Diagnosis.Accurate source ⟨.syntactic, e.cause.reason, e.position, source⟩ := by
  have tokens := tokenize_of_run run
  have first : FirstRefusal source .syntactic := .syntactic tokens run.ofTokens? h
  rcases TokenStream.query_error h with ⟨start, empty⟩ | ⟨other, place⟩
  · refine ⟨rfl, ?_, first.iff, nofun, fun _ => ?_, nofun⟩
    · simp only [start, Nat.zero_le]
    · rw [if_pos (by rw [empty]; rfl)]
      exact start
  · -- at the end, which is the last token, or at one of the others
    have located : ∃ t ∈ body ++ [.endOf source], t.position = e.position := by
      rcases place with stop | ⟨t, ht, position⟩
      · exact ⟨.endOf source, by simp, stop.symm⟩
      · exact ⟨t, by simp [ht], position⟩
    have inside : e.position ≤ source.length := by
      rcases place with stop | ⟨t, ht, position⟩
      · exact Nat.le_of_eq stop
      · exact position ▸ Nat.le_of_lt (run.position_lt t ht)
    refine ⟨rfl, inside, first.iff, nofun, fun _ => ?_, nofun⟩
    rw [if_neg fun reason => other (SyntaxError.reason_eq_empty reason)]
    exact ⟨_, tokens, located⟩

/-- The diagnosis of an error at a token of a source that is a query is accurate. -/
theorem Diagnosis.accurate_semantic (run : Run 0 source body source.length []) {q : Query}
    (h : TokenStream.query ⟨body, source.length⟩ = .ok q) {t : Token} (ht : t ∈ body)
    (cause : SemanticError) :
    Diagnosis.Accurate source ⟨.semantic, cause.reason, t.position, source⟩ := by
  have tokens := tokenize_of_run run
  have first : FirstRefusal source .semantic := .semantic tokens run.ofTokens? h
  have inside : t.position ≤ source.length := Nat.le_of_lt (run.position_lt t ht)
  exact ⟨rfl, inside, first.iff, nofun, nofun,
    fun _ => ⟨_, tokens, t, by simp [ht], run.kind_ne_eof t ht, rfl⟩⟩

end

namespace CompiledQuery

/-- A refused source has an accurate diagnosis. -/
theorem ofSource_error {source : Text} {p : Problem} (h : ofSource source = .error p) :
    ∃ d, p.diagnosis? source = some d ∧ d.Accurate source := by
  rcases maximalMunch_or_stopsAt source with ⟨tokens, body, run, -⟩ | ⟨e, stops⟩
  · rw [ofSource, run.query] at h
    rcases bind_eq_error.mp h with refused | ⟨q, read, refused⟩
    · obtain ⟨e, read, rfl⟩ := mapError_eq_error.mp refused
      exact ⟨_, rfl, Diagnosis.accurate_syntactic run read⟩
    · have read := mapError_eq_ok.mp read
      obtain ⟨n, -, derives⟩ := @queryWithin_sound _ _ _ (.endOf source) run.shaped rfl read
      obtain ⟨t, ht, cause, rfl⟩ := Query.compile_error derives refused
      exact ⟨_, rfl, Diagnosis.accurate_semantic run read ht cause⟩
  · rw [ofSource, Query.ofSource, TokenStream.ofSource, tokenize_of_stopsAt stops] at h
    cases h
    exact ⟨_, rfl, Diagnosis.accurate_lexical stops⟩

/-! ### Refusing stages -/

/-- A text that is not made of lexemes is refused for this, and for nothing else. -/
theorem ofSource_eq_lexical_iff {source : Text} {e : Located LexicalError} :
    ofSource source = .error (.lexical e) ↔ tokenize source = .error e := by
  have refuses {e : Located LexicalError} (h : tokenize source = .error e) :
      ofSource source = .error (.lexical e) := by
    rw [ofSource, Query.ofSource, TokenStream.ofSource, h]
    rfl
  constructor
  · intro h
    obtain ⟨d, diagnosed, accurate⟩ := ofSource_error h
    obtain rfl := Option.some.inj diagnosed
    cases (accurate.stage_iff .lexical).mp rfl with
    | lexical failed =>
      rw [refuses failed] at h
      cases h
      exact failed
  · exact refuses

/-- Tokens that are not a query are refused for this, and for nothing else. -/
theorem ofSource_eq_syntactic_iff {source : Text} {tokens : List Token} {stream : TokenStream}
    (ht : tokenize source = .ok tokens) (hs : TokenStream.ofTokens? tokens = some stream)
    {e : Located SyntaxError} :
    ofSource source = .error (.syntactic e) ↔ stream.query = .error e := by
  obtain ⟨body, run, rfl⟩ := tokenize_eq_ok.mp ht
  obtain rfl := Option.some.inj (run.ofTokens?.symm.trans hs)
  have refuses {e : Located SyntaxError} (h : TokenStream.query ⟨body, source.length⟩ = .error e) :
      ofSource source = .error (.syntactic e) := by
    rw [ofSource, run.query, h]
    rfl
  constructor
  · intro h
    obtain ⟨d, diagnosed, accurate⟩ := ofSource_error h
    obtain rfl := Option.some.inj diagnosed
    cases (accurate.stage_iff .syntactic).mp rfl with
    | syntactic ht' hs' failed =>
      obtain rfl := stream_unique ht hs ht' hs'
      rw [refuses failed] at h
      cases h
      exact failed
  · exact refuses

/-- **Every refusal is located, and comes from the first stage that fails.**  A source is a query,
or it is refused with an accurate diagnosis.  It is refused with a lexical error exactly if it is
not made of lexemes, and this is the error.  If it is made of lexemes, they are a stream that the
grammar can read, and it is refused with a syntax error exactly if the grammar has no query for
them, and this is the error.  If there is a query, a wrong predicate is reported in front of a wrong
sort path, and without either the source is accepted. -/
theorem ofSource_located (source : Text) :
    ((∃ q, ofSource source = .ok q) ∨
      ∃ p d, ofSource source = .error p ∧ p.diagnosis? source = some d ∧ d.Accurate source) ∧
    (∀ e, ofSource source = .error (.lexical e) ↔ tokenize source = .error e) ∧
    (∀ tokens, tokenize source = .ok tokens → ∃ stream, TokenStream.ofTokens? tokens = some stream ∧
      TokenStream.ofSource source = .ok stream ∧
      (∀ e, ofSource source = .error (.syntactic e) ↔ stream.query = .error e) ∧
      ∀ q, Query.ofSource source = .ok q ↔ stream.query = .ok q) ∧
    ∀ q, Query.ofSource source = .ok q →
      (∀ p, q.test = .error p → ofSource source = .error p) ∧
      (∀ holds p, q.test = .ok holds → q.ranking? = .error p → ofSource source = .error p) ∧
      ∀ holds ranking, q.test = .ok holds → q.ranking? = .ok ranking →
        ofSource source = .ok ⟨q, holds, ranking⟩ := by
  refine ⟨?_, fun _ => ofSource_eq_lexical_iff, ?_, ?_⟩
  · cases h : ofSource source with
    | ok q => exact .inl ⟨q, rfl⟩
    | error p =>
      obtain ⟨d, diagnosed, accurate⟩ := ofSource_error h
      exact .inr ⟨p, d, rfl, diagnosed, accurate⟩
  · intro tokens h
    obtain ⟨body, run, rfl⟩ := tokenize_eq_ok.mp h
    refine ⟨_, run.ofTokens?, run.ofSource, fun _ => ?_, fun q => ?_⟩
    · exact ofSource_eq_syntactic_iff h run.ofTokens?
    · rw [run.query]
      exact mapError_eq_ok
  · intro q h
    -- the test comes first, and the ranking only behind a good one
    rw [ofSource, h, ok_bind, Query.compile]
    refine ⟨?_, ?_, ?_⟩
    · intro p tested
      rw [tested, error_bind]
    · intro holds p tested ranked
      rw [tested, ok_bind, ranked, error_bind]
    · intro holds ranking tested ranked
      rw [tested, ok_bind, ranked, ok_bind]

end CompiledQuery

end PhotoQuery
