import PhotoQuery.Proofs.Expr.Typing
import PhotoQuery.Proofs.Grammar.Positions
import PhotoQuery.Proofs.Grammar.RoundTrip
import PhotoQuery.Proofs.Query.Source

/-!
# Query — positions never change a meaning

Sources with the same words may differ in their blanks, their quotes and the escapes in their
strings, and so in the positions of their tokens.  They are the same query, or refused for the same
reason (`same_of_words`): the grammar reads alike tokens alike, and alike trees compile alike.

Trees that are equal with all positions erased are alike under the relation that holds of any two
positions (`Expr.alike_of_erase_eq`), so they too mean the same, whatever sources they are from.
-/

namespace PhotoQuery

open Outcome

variable {R T : Nat → Nat → Prop}

/-- Any two positions are related. -/
def Anywhere (_ _ : Nat) : Prop := True

/-! ### Erased positions -/

namespace Expr

theorem forall₂_erase {args args' : List Expr} :
    List.Forall₂ (fun a a' => a.erase = a'.erase) args args' ↔
      args.map erase = args'.map erase := by
  rw [← List.forall₂_eq_eq_eq, List.forall₂_map_left_iff, List.forall₂_map_right_iff]

theorem Alike.erase_eq {e e' : Expr} (h : e.Alike R e') : e.erase = e'.erase := by
  induction h with
  | logical _ _ _ _ ihl ihr => rw [erase, erase, ihl, ihr]
  | comparison _ _ _ _ ihl ihr => rw [erase, erase, ihl, ihr]
  | negation _ _ ih => rw [erase, erase, ih]
  | call name _ length _ ih =>
    have same := forall₂_erase.mp (List.forall₂_iff_zip.mpr ⟨length, ih⟩)
    rw [erase, erase, eraseAll_eq_map, eraseAll_eq_map, same]
  | property => rw [erase, erase]
  | constant => rw [erase, erase]
  | foreign => rfl

/-- Trees that are equal up to positions are alike. -/
theorem alike_of_erase_eq {e e' : Expr} (h : e.erase = e'.erase) : e.Alike Anywhere e' := by
  induction e using Expr.induct generalizing e' with
  | logical connective position left right ihl ihr =>
    cases e' <;> simp only [erase, reduceCtorEq, logical.injEq, true_and] at h
    obtain ⟨rfl, hl, hr⟩ := h
    exact .logical connective trivial (ihl hl) (ihr hr)
  | comparison op position left right ihl ihr =>
    cases e' <;> simp only [erase, reduceCtorEq, comparison.injEq, true_and] at h
    obtain ⟨rfl, hl, hr⟩ := h
    exact .comparison op trivial (ihl hl) (ihr hr)
  | negation position e ih =>
    cases e' <;> simp only [erase, reduceCtorEq, negation.injEq, true_and] at h
    exact .negation trivial (ih h)
  | call name position args ih =>
    cases e' <;> simp only [erase, reduceCtorEq, call.injEq, true_and, eraseAll_eq_map] at h
    obtain ⟨rfl, same⟩ := h
    have erased := forall₂_erase.mpr same
    exact .call name trivial erased.length_eq fun ha =>
      ih _ (List.of_mem_zip ha).1 ((List.forall₂_iff_zip.mp erased).2 ha)
  | property path position =>
    cases e' <;> simp only [erase, reduceCtorEq, property.injEq, and_true] at h
    subst h
    exact .property path trivial
  | constant value position =>
    cases e' <;> simp only [erase, reduceCtorEq, constant.injEq, and_true] at h
    subst h
    exact .constant value trivial
  | foreign tag =>
    cases e' <;> simp only [erase, reduceCtorEq, foreign.injEq] at h
    subst h
    exact .foreign tag trivial

end Expr

/-- Alike queries are equal up to positions. -/
theorem Query.Alike.erase_eq {q q' : Query} (h : q.Alike R q') : q.erase = q'.erase := by
  obtain ⟨predicate, sort, limit⟩ := q
  obtain ⟨predicate', sort', limit'⟩ := q'
  obtain ⟨hp, hs, rfl⟩ := h
  have predicates : predicate.map Expr.erase = predicate'.map Expr.erase := by
    cases hp with
    | none => rfl
    | some he => exact congrArg some he.erase_eq
  have clauses : sort.map (fun s => { s with position := 0 }) =
      sort'.map fun s => { s with position := 0 } := by
    cases hs with
    | none => rfl
    | @some s s' h =>
      obtain ⟨path, direction, position⟩ := s
      obtain ⟨rfl, rfl, -⟩ := h
      rfl
  exact congrArg₂ (fun p s => Query.mk p s limit) predicates clauses

/-! ### Compiled queries -/

/-- The compiled queries differ in the positions of their queries only, and these are related. -/
structure CompiledQuery.Alike (R : Nat → Nat → Prop) (q q' : CompiledQuery) : Prop where
  query : q.query.Alike R q'.query
  holds : q.holds = q'.holds
  ranking : q.ranking = q'.ranking

theorem Query.test_alike {q q' : Query} (h : q.Alike R q') :
    Agree (Problem.Alike R) Eq q.test q'.test := by
  obtain ⟨predicate, sort, limit⟩ := q
  obtain ⟨predicate', sort', limit'⟩ := q'
  obtain ⟨hp, -, -⟩ := h
  cases hp with
  | none => exact .ok rfl
  | some he => exact Expr.predicate_alike he

theorem Query.ranking?_alike {q q' : Query} (h : q.Alike R q') :
    Agree (Problem.Alike R) Eq q.ranking? q'.ranking? := by
  obtain ⟨predicate, sort, limit⟩ := q
  obtain ⟨predicate', sort', limit'⟩ := q'
  obtain ⟨-, hs, -⟩ := h
  cases hs with
  | none => exact .ok rfl
  | @some s s' h =>
    obtain ⟨path, direction, position⟩ := s
    obtain ⟨path', direction', position'⟩ := s'
    obtain ⟨rfl, rfl, hp⟩ := h
    exact (reportAt_same hp (Ranking.ofClause ⟨path, direction, position⟩)).map (congrArg some)

/-- **Alike queries compile alike.** -/
theorem Query.compile_alike {q q' : Query} (h : q.Alike R q') :
    Agree (Problem.Alike R) (CompiledQuery.Alike R) q.compile q'.compile := by
  refine (Query.test_alike h).bind ?_
  rintro holds _ rfl
  refine (Query.ranking?_alike h).bind ?_
  rintro ranking _ rfl
  exact .ok ⟨h, rfl, rfl⟩

/-! ### The same meaning -/

/-- The queries are one query up to positions, and select and order photos in the same way. -/
structure CompiledQuery.Same (q q' : CompiledQuery) : Prop where
  query : q.query.erase = q'.query.erase
  holds : ∀ photo, q.holds photo = q'.holds photo
  order? : ∀ a b, q.order? a b = q'.order? a b
  apply : ∀ photos, q.apply photos = q'.apply photos

theorem CompiledQuery.Alike.same {q q' : CompiledQuery} (h : q.Alike R q') : q.Same q' := by
  obtain ⟨query, holds, ranking⟩ := q
  obtain ⟨query', holds', ranking'⟩ := q'
  obtain ⟨hq, rfl, rfl⟩ := h
  refine ⟨hq.erase_eq, fun _ => rfl, fun _ _ => rfl, fun photos => ?_⟩
  have limit : query.limit = query'.limit := hq.limit
  simp only [CompiledQuery.apply, CompiledQuery.applyOn, limit]

/-- The problems, each in a source of its own, are shown with one reason and one stage. -/
structure Problem.Same (source source' : Text) (p p' : Problem) : Prop where
  reason : p.reason = p'.reason
  stage : (p.diagnosis? source).map Diagnosis.stage = (p'.diagnosis? source').map Diagnosis.stage

theorem Problem.Alike.same {p p' : Problem} (h : p.Alike R p') (source source' : Text) :
    p.Same source source' p' := by
  cases h <;> exact ⟨rfl, rfl⟩

/-- Faults are shown with one reason, as syntax errors. -/
theorem Fault.same {e e' : Located SyntaxError} (h : Fault T e e') (source source' : Text) :
    Problem.Same source source' (.syntactic e) (.syntactic e') :=
  ⟨congrArg SyntaxError.reason h.cause_eq, rfl⟩

/-- The checked expressions have the same kind, and the same value for every photo. -/
structure Compiled.Same (c c' : Compiled) : Prop where
  kind : c.kind = c'.kind
  optional : c.optional = c'.optional
  value : ∀ photo, c.value photo = c'.value photo

theorem Compiled.Alike.same {c c' : Compiled} (h : c.Alike R c') : c.Same c' where
  kind := congrArg Reading.kind h.reading
  optional := h.optional
  value photo := congrArg (·.value photo) h.reading

/-! ### Sources -/

/-- Tokens with the same words are alike, wherever they stand. -/
theorem Token.allAlike_of_words {ts ts' : List Token} (h : ts.map Token.word = ts'.map Token.word) :
    Token.AllAlike Anywhere ts ts' := by
  have words : List.Forall₂ (fun t t' => t.word = t'.word) ts ts' := by
    rwa [← List.forall₂_eq_eq_eq, List.forall₂_map_left_iff, List.forall₂_map_right_iff] at h
  refine words.imp fun t t' same => ?_
  exact ⟨congrArg Word.kind same, congrArg Word.value same, trivial⟩

/-- Sources with the same words are alike queries, or refused alike. -/
theorem Query.ofSource_alike {source source' : Text} {body body' : List Token}
    (run : Run 0 source body source.length []) (run' : Run 0 source' body' source'.length [])
    (same : body.map Token.word = body'.map Token.word) :
    Agree (Problem.Same source source') (Query.Alike Anywhere) (Query.ofSource source)
      (Query.ofSource source') := by
  rw [run.query, run'.query]
  have places : Places Anywhere Anywhere source.length source'.length := ⟨id, trivial⟩
  exact (TokenStream.queryWithin_alike places (Token.allAlike_of_words same) _).mapError
    fun fault => fault.same source source'

/-- **Positions never change a meaning.**  Two sources with the same words are the same query, with
the same photos selected in the same order, or are refused in one stage for one reason; and two
trees that are equal up to positions have the same kind and the same values, or are refused for one
reason, whatever sources they are from. -/
theorem same_of_words :
    (∀ {source source' : Text} {tokens tokens' : List Token}, tokenize source = .ok tokens →
      tokenize source' = .ok tokens' → tokens.map Token.word = tokens'.map Token.word →
      Agree (Problem.Same source source') CompiledQuery.Same (CompiledQuery.ofSource source)
        (CompiledQuery.ofSource source')) ∧
    ∀ {e e' : Expr}, e.erase = e'.erase → ∀ source source' : Text,
      Agree (Problem.Same source source') Compiled.Same e.compile e'.compile := by
  refine ⟨?_, ?_⟩
  · intro source source' tokens tokens' h h' same
    obtain ⟨body, run, rfl⟩ := tokenize_eq_ok.mp h
    obtain ⟨body', run', rfl⟩ := tokenize_eq_ok.mp h'
    rw [List.map_append, List.map_append] at same
    refine (Query.ofSource_alike run run' (List.append_inj' same rfl).1).bind fun alike => ?_
    exact (Query.compile_alike alike).mono (fun problem => problem.same source source')
      fun compiled => compiled.same
  · intro e e' h source source'
    exact (Expr.compile_alike (Expr.alike_of_erase_eq h)).mono
      (fun problem => problem.same source source') fun compiled => compiled.same

/-- `filename=="a" | sort width` and ` filename == '\a'|sort width` have the same words, and two
negations differ in their positions only. -/
theorem same_of_words_quotes :
    let source := Text.ofString "filename==\"a\" | sort width"
    let source' := Text.ofString " filename == '\\a'|sort width"
    let tokens := (Scan.ofText source).tokens
    let tokens' := (Scan.ofText source').tokens
    let e : Expr := .negation 0 (.constant (.boolean true) 4)
    let e' : Expr := .negation 7 (.constant (.boolean true) 12)
    (tokenize source = .ok tokens ∧ tokenize source' = .ok tokens' ∧
      tokens.map Token.word = tokens'.map Token.word ∧
      Agree (Problem.Same source source') CompiledQuery.Same (CompiledQuery.ofSource source)
        (CompiledQuery.ofSource source')) ∧
    e.erase = e'.erase ∧
      Agree (Problem.Same source source') Compiled.Same e.compile e'.compile := by
  intro source source' tokens tokens' e e'
  have h : tokenize source = .ok tokens := by decide +kernel
  have h' : tokenize source' = .ok tokens' := by decide +kernel
  have same : tokens.map Token.word = tokens'.map Token.word := by decide +kernel
  have erased : e.erase = e'.erase := rfl
  exact ⟨⟨h, h', same, same_of_words.1 h h' same⟩, erased, same_of_words.2 erased source source'⟩

end PhotoQuery
