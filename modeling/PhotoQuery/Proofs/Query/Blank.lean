import Mathlib.Data.List.TakeWhile
import PhotoQuery.Proofs.Query.Failure
import PhotoQuery.Proofs.Token.Concatenation

/-!
# Query — blank sources

A source is blank if trimming leaves nothing of it.  Nothing else in the library asks in this way.
The scanner leaves blanks out one by one, and of a blank source only the end is left
(`tokenize_blank_iff`); the grammar refuses a source for want of an expression if it has no token in
front of the end; and nothing that can be wrong with any other source is worded like that
(`Problem.reason_eq_empty_iff`).  So a source is refused as empty exactly if it is blank
(`CompiledQuery.ofSource_empty_iff`).

`Query.complaint?` asks first, and words it differently.  Its wording is no message of an error,
since a message in full starts by saying that it is one (`Query.complaint?_blank_iff`).
-/

namespace PhotoQuery

open Text Outcome Grammar

variable {source : Text}

/-! ### Blank texts -/

/-- Trimming leaves nothing of a text exactly if there are only blanks in it. -/
theorem Text.trim_eq_nil_iff {text : Text} : text.trim = [] ↔ ∀ u ∈ text, isBlank u := by
  rw [trim, trimEnd, List.reverse_eq_nil_iff, List.dropWhile_eq_nil_iff]
  constructor
  · intro left u hu
    rw [← List.takeWhile_append_dropWhile (p := isBlank) (l := text), List.mem_append] at hu
    rcases hu with hu | hu
    · exact List.mem_takeWhile_imp hu
    · exact left u (List.mem_reverse.mpr hu)
  · intro blank u hu
    exact blank u ((List.dropWhile_sublist _).subset (List.mem_reverse.mp hu))

/-- A run over a whole text that finds no token finds blanks only. -/
theorem Run.forall_isBlank {position stop : Nat} {text left : Text} {tokens : List Token}
    (h : Run position text tokens stop left) (none : tokens = []) (whole : left = []) :
    ∀ u ∈ text, Text.isBlank u := by
  induction h with
  | refl =>
    subst whole
    exact List.forall_mem_nil _
  | blank hu _ ih => exact List.forall_mem_cons.mpr ⟨hu, ih none whole⟩
  | lexeme => cases none

/-- A run goes through a blank source and finds nothing. -/
theorem Run.of_blank (h : ∀ u ∈ source, isBlank u) : Run 0 source [] source.length [] := by
  have run := Run.blanks h 0 []
  rwa [List.append_nil, Nat.zero_add] at run

/-- A source has no token but the end exactly if it is blank. -/
theorem tokenize_blank_iff :
    (∃ t, tokenize source = .ok [t] ∧ t.kind = .eof) ↔ ∀ u ∈ source, isBlank u := by
  constructor
  · rintro ⟨t, read, -⟩
    obtain ⟨body, run, single⟩ := tokenize_eq_ok.mp read
    have same : [] ++ [t] = body ++ [⟨.eof, [], source.length⟩] := single
    exact run.forall_isBlank (List.append_inj' same rfl).1.symm rfl
  · intro blank
    exact ⟨_, tokenize_of_run (Run.of_blank blank), rfl⟩

/-! ### Wordings -/

/-- A text differs from one that does not start like it. -/
theorem Text.append_ne {start rest other : Text} (differ : ¬ start <+: other) :
    start ++ rest ≠ other := fun same => differ ⟨rest, same⟩

/-- No message about a unit of a source says that there is no expression. -/
theorem LexicalError.reason_ne_empty (cause : LexicalError) :
    cause.reason ≠ ofString "Empty filter expression" := by
  cases cause with
  | unexpectedUnit => exact append_ne (by decide)
  | unterminatedString => decide

/-- No message about the meaning of a query says that there is none. -/
theorem SemanticError.reason_ne_empty (cause : SemanticError) :
    cause.reason ≠ ofString "Empty filter expression" := by
  cases cause with
  | emptyPath | missingExifField | missingRawTag | operandNotBoolean | predicateNotBoolean => decide
  | wrongArity | needsDate => exact fun h => absurd (List.cons.inj h).1 (by decide)
  | needsString place =>
    rw [reason, List.append_assoc]
    exact append_ne (by cases place <;> decide)
  | sideNotBoolean side =>
    rw [reason, List.append_assoc]
    exact append_ne (by cases side <;> decide)
  | _ =>
    simp only [reason, List.append_assoc]
    exact append_ne (by decide)

/-- Only for want of an expression a source is refused as empty. -/
theorem Problem.reason_eq_empty_iff {p : Problem} :
    p.reason = ofString "Empty filter expression" ↔
      ∃ position, p = .syntactic ⟨position, .emptyExpression⟩ := by
  constructor
  · intro h
    cases p with
    | lexical e => exact absurd h e.cause.reason_ne_empty
    | syntactic e => exact ⟨e.position, by rw [← SyntaxError.reason_eq_empty h]⟩
    | semantic e => exact absurd h e.cause.reason_ne_empty
    | foreignNode tag => exact absurd h (append_ne (by decide))
  · rintro ⟨position, rfl⟩
    rfl

/-! ### Refused sources -/

/-- Tokens are never refused for want of an expression. -/
theorem TokenStream.query_error_cause_ne {stream : TokenStream} (nonempty : stream.tokens ≠ [])
    {e : Located SyntaxError} (h : stream.query = .error e) : e.cause ≠ .emptyExpression := by
  -- reading compared with itself, whatever the positions
  let R : Nat → Nat → Prop := fun _ _ => True
  have alike : Token.AllAlike R stream.tokens stream.tokens :=
    List.forall₂_same.mpr fun _ _ => ⟨rfl, rfl, trivial⟩
  have read := stream.queryWithin_misread (T := R) ⟨id, trivial⟩ alike nonempty maxNestingDepth
  rw [← TokenStream.query, h] at read
  cases read with
  | error misread => exact misread.cause_ne

namespace CompiledQuery

/-- A blank source is refused as empty, at its start. -/
theorem ofSource_of_blank (h : ∀ u ∈ source, isBlank u) :
    ofSource source = .error (.syntactic ⟨0, .emptyExpression⟩) := by
  rw [ofSource, (Run.of_blank h).query]
  rfl

/-- A source is refused as empty exactly if it is blank. -/
theorem ofSource_empty_iff :
    (∃ p, ofSource source = .error p ∧ p.reason = ofString "Empty filter expression") ↔
      ∀ u ∈ source, isBlank u := by
  constructor
  · rintro ⟨p, refused, worded⟩
    obtain ⟨position, rfl⟩ := Problem.reason_eq_empty_iff.mp worded
    -- stage by stage: with a token, no stage words its refusal like this
    rcases maximalMunch_or_stopsAt source with ⟨tokens, body, run, -⟩ | ⟨e, stops⟩
    · by_cases none : body = []
      · exact run.forall_isBlank none rfl
      rw [ofSource, run.query] at refused
      rcases bind_eq_error.mp refused with unread | ⟨q, read, refused⟩
      · obtain ⟨e, unread, same⟩ := mapError_eq_error.mp unread
        cases same
        exact absurd rfl (TokenStream.query_error_cause_ne none unread)
      · obtain ⟨n, -, derives⟩ :=
          @queryWithin_sound _ _ _ (.endOf source) run.shaped rfl (mapError_eq_ok.mp read)
        obtain ⟨t, ht, cause, other⟩ := Query.compile_error derives refused
        cases other
    · rw [ofSource, Query.ofSource, TokenStream.ofSource, tokenize_of_stopsAt stops] at refused
      cases refused
  · intro blank
    exact ⟨_, ofSource_of_blank blank, rfl⟩

end CompiledQuery

/-! ### Complaints -/

/-- What is said in full of an error in a source never is what is said of a blank one. -/
theorem Diagnosis.detail_ne_blank {d : Diagnosis} (nonempty : d.source ≠ []) :
    d.detail ≠ ofString "Filter expression cannot be empty" := by
  rw [detail, if_neg (by simpa using nonempty)]
  simp only [List.append_assoc]
  exact append_ne (by decide)

namespace Query

/-- Of a blank source, the complaint is that it is empty. -/
theorem complaint?_of_blank (h : source.trim = []) :
    complaint? source = some (ofString "Filter expression cannot be empty") := by
  rw [complaint?, if_pos (by rw [h]; rfl)]

/-- Of a source that is not blank, the complaint is the diagnosis of the error in it. -/
theorem complaint?_of_error (h : source.trim ≠ []) {p : Problem}
    (refused : CompiledQuery.ofSource source = .error p) :
    ∃ d, p.diagnosis? source = some d ∧ d.source = source ∧
      complaint? source = some d.detail := by
  obtain ⟨d, diagnosed, accurate⟩ := CompiledQuery.ofSource_error refused
  refine ⟨d, diagnosed, accurate.source_eq, ?_⟩
  rw [complaint?, if_neg (by simpa using h), refused]
  simp only [Problem.detail, diagnosed, Option.elim_some]

/-- Of a source that compiles there is no complaint. -/
theorem complaint?_of_ok (h : source.trim ≠ []) {q : CompiledQuery}
    (compiled : CompiledQuery.ofSource source = .ok q) : complaint? source = none := by
  rw [complaint?, if_neg (by simpa using h), compiled]

/-- The complaint is that of a blank source exactly if the source is blank. -/
theorem complaint?_blank_iff :
    complaint? source = some (ofString "Filter expression cannot be empty") ↔
      source.trim = [] := by
  refine ⟨fun complaint => by_contra fun shows => ?_, complaint?_of_blank⟩
  cases h : CompiledQuery.ofSource source with
  | ok q =>
    rw [complaint?_of_ok shows h] at complaint
    cases complaint
  | error p =>
    obtain ⟨d, -, rfl, detail⟩ := complaint?_of_error shows h
    have nonempty : d.source ≠ [] := fun empty => shows (by rw [empty]; rfl)
    exact Diagnosis.detail_ne_blank nonempty (Option.some.inj (detail.symm.trans complaint))

/-- A source is valid exactly if it compiles. -/
theorem isValid_iff : isValid source ↔ ∃ q, CompiledQuery.ofSource source = .ok q := by
  rw [isValid, Option.isNone_iff_eq_none]
  by_cases blank : source.trim = []
  · rw [complaint?_of_blank blank, CompiledQuery.ofSource_of_blank (trim_eq_nil_iff.mp blank)]
    simp
  cases h : CompiledQuery.ofSource source with
  | ok q => simp [complaint?_of_ok blank h]
  | error p =>
    obtain ⟨d, -, -, complaint⟩ := complaint?_of_error blank h
    simp [complaint]

end Query

end PhotoQuery
