import Mathlib.Data.Nat.Find
import PhotoQuery.Proofs.Expr.Compiling
import PhotoQuery.Proofs.Query.Positions
import PhotoQuery.Proofs.Token.Embedding

/-!
# Query — composing sources

Sources of predicates compose as text: two of them, each in parentheses, with `and` or `or` between
them, are a source of the conjunction or the disjunction, and `not` in front of one in parentheses
is a source of the negation (`IsPredicate.composes`).  The text has the tokens of its parts at other
places (`Writes`), these tokens derive the trees of the parts up to positions (`Reads`), and what a
tree is compiled to does not depend on positions.

The parts must leave room below `maxNestingDepth` for what is put around them.
-/

namespace PhotoQuery

open Text Outcome Grammar

/-! ### Derivations elsewhere -/

namespace Grammar

theorem Shaped.of_word {t t' : Token} (h : Shaped t) (same : t'.word = t.word) : Shaped t' := by
  have kind : t'.kind = t.kind := congrArg Word.kind same
  have value : t'.value = t.value := congrArg Word.value same
  refine ⟨?_, ?_⟩
  · rw [kind, value]
    exact h.integer
  · rw [kind, value]
    exact h.decimal

/-- Tokens with the words of shaped ones are shaped. -/
theorem shaped_of_words {ts ts' : List Token} (h : ∀ t ∈ ts, Shaped t)
    (same : ts'.map Token.word = ts.map Token.word) : ∀ t ∈ ts', Shaped t := by
  intro t ht
  have word : t.word ∈ ts.map Token.word := same ▸ List.mem_map_of_mem ht
  obtain ⟨t', ht', word⟩ := List.mem_map.mp word
  exact (h t' ht').of_word word.symm

theorem ends_nil (c : Category) : Ends c [] := by simp [Ends]

/-- What the disjunction parser reads off derived tokens, at a depth that pays for them. -/
theorem Derives.read {ts : List Token} {e : Expr} {n d : Nat} (h : Derives .disjunction ts e n)
    (hn : n ≤ d) : (Parser.level 0 d).disjunction ts = .ok (e, []) := by
  have read := complete h 0 d hn [] (ends_nil _)
  rwa [List.append_nil, ← level_disjunction] at read

/-- Tokens derive one disjunction only. -/
theorem Derives.tree_unique {ts : List Token} {e e' : Expr} {n n' : Nat}
    (h : Derives .disjunction ts e n) (h' : Derives .disjunction ts e' n') : e = e' := by
  have read := h.read (Nat.le_max_left n n')
  rw [h'.read (Nat.le_max_right n n')] at read
  cases read
  rfl

/-- Tokens with the same words derive the same disjunction, up to positions and at no higher
cost. -/
theorem Derives.transfer {ts ts' : List Token} {e : Expr} {n : Nat}
    (h : Derives .disjunction ts e n) (shaped : ∀ t ∈ ts, Shaped t)
    (same : ts'.map Token.word = ts.map Token.word) :
    ∃ e' n', n' ≤ n ∧ Derives .disjunction ts' e' n' ∧ e'.erase = e.erase := by
  have places : Places Anywhere Anywhere 0 0 := ⟨id, trivial⟩
  have alike := (Parser.level_alike places n).disjunction (Token.allAlike_of_words same.symm)
  rw [h.read (Nat.le_refl n)] at alike
  generalize read : (Parser.level 0 n).disjunction ts' = result at alike
  cases alike with
  | @ok _ taken' taken =>
    obtain ⟨e', left⟩ := taken'
    obtain rfl : left = [] := List.forall₂_nil_left_iff.mp taken.left
    rw [level_disjunction] at read
    obtain ⟨used, n', whole, derives, hn⟩ :=
      sound 0 n .disjunction _ _ _ (shaped_of_words shaped same) read
    rw [List.append_nil] at whole
    subst whole
    exact ⟨e', n', hn, derives, taken.read.erase_eq.symm⟩

end Grammar

/-- The words of derived tokens derive the tree wherever they stand, at one cost for all places. -/
theorem Grammar.Derives.exists_reads {ts : List Token} {e : Expr} {n : Nat}
    (h : Derives .disjunction ts e n) (shaped : ∀ t ∈ ts, Shaped t) :
    ∃ m, m ≤ n ∧ Reads .disjunction (ts.map Token.word) e.erase m := by
  classical
  -- the least cost that tokens with these words derive anything at
  have derivable : ∃ m ts' e', ts'.map Token.word = ts.map Token.word ∧
      Derives .disjunction ts' e' m := ⟨n, ts, e, rfl, h⟩
  obtain ⟨ts₀, e₀, same₀, h₀⟩ := Nat.find_spec derivable
  have shaped₀ := shaped_of_words shaped same₀
  refine ⟨Nat.find derivable, Nat.find_min' derivable ⟨ts, e, rfl, h⟩, ?_⟩
  intro ts' same
  obtain ⟨e', n', hn, derives, erased⟩ := h₀.transfer shaped₀ (same.trans same₀.symm)
  obtain rfl : n' = Nat.find derivable :=
    Nat.le_antisymm hn (Nat.find_min' derivable ⟨ts', e', same, derives⟩)
  obtain ⟨e'', n'', -, back, erased'⟩ := derives.transfer (shaped_of_words shaped same) same.symm
  obtain rfl := back.tree_unique h
  exact ⟨e', derives, erased'.symm⟩

/-! ### Tests of joined trees -/

namespace Expr

theorem erase_logical (connective : Connective) (position : Nat) (l r : Expr) :
    (logical connective position l r).erase = .logical connective 0 l.erase r.erase := by
  rw [erase]

theorem erase_negation (position : Nat) (e : Expr) :
    (negation position e).erase = .negation 0 e.erase := by
  rw [erase]

/-- A test of photos is a compiled tree of truth values, and holds where it reads true. -/
theorem exists_read_of_predicate {e : Expr} {holds : Image → Bool} (h : e.predicate = .ok holds) :
    ∃ c read, e.compile = .ok c ∧ c.reading = .boolean read ∧
      ∀ photo, holds photo = (read photo == some true) := by
  obtain ⟨c, compiled, h⟩ := bind_eq_ok.mp h
  obtain ⟨read, asked, h⟩ := bind_eq_ok.mp h
  cases h
  exact ⟨c, read, compiled, Reading.asBoolean_eq_ok.mp asked, fun _ => rfl⟩

/-- Two tests with a connective between them are a test, and joined by it. -/
theorem predicate_logical {l r : Expr} {f g : Image → Bool} (connective : Connective)
    (position : Nat) (hl : l.predicate = .ok f) (hr : r.predicate = .ok g) :
    ∃ holds, (logical connective position l r).predicate = .ok holds ∧
      ∀ photo, holds photo = connective.holds (f photo) (g photo) := by
  obtain ⟨cl, readLeft, compiledLeft, readingLeft, hf⟩ := exists_read_of_predicate hl
  obtain ⟨cr, readRight, compiledRight, readingRight, hg⟩ := exists_read_of_predicate hr
  have compiled : (logical connective position l r).predicate = .ok fun photo =>
      some (connective.holds (readLeft photo == some true) (readRight photo == some true)) ==
        some true := by
    rw [predicate, compile, compiledLeft, ok_bind, compiledRight, ok_bind,
      Reading.asBoolean_eq_ok.mpr readingLeft, ok_bind, Reading.asBoolean_eq_ok.mpr readingRight]
    rfl
  refine ⟨_, compiled, fun photo => ?_⟩
  rw [hf, hg]
  exact beq_true _

/-- A test behind `not` is one, and holds of the other photos. -/
theorem predicate_negation {e : Expr} {f : Image → Bool} (position : Nat)
    (h : e.predicate = .ok f) :
    ∃ holds, (negation position e).predicate = .ok holds ∧ ∀ photo, holds photo = !f photo := by
  obtain ⟨c, read, compiled, reading, hf⟩ := exists_read_of_predicate h
  have negated : (negation position e).predicate = .ok fun photo =>
      some (read photo != some true) == some true := by
    rw [predicate, compile, compiled, ok_bind, Reading.asBoolean_eq_ok.mpr reading]
    rfl
  refine ⟨_, negated, fun photo => ?_⟩
  rw [hf]
  exact beq_true _

end Expr

/-! ### Sources of predicates -/

/-- The source is of a predicate without a sort or a limit, and nests to the depth at most. -/
structure IsPredicate (depth : Nat) (source : Text) (q : CompiledQuery) : Prop where
  compiled : CompiledQuery.ofSource source = .ok q
  selects : q.query.predicate.isSome
  unsorted : q.query.sort = none
  unlimited : q.query.limit = none
  shallow : ∃ stream query, TokenStream.ofSource source = .ok stream ∧
    stream.queryWithin depth = .ok query

/-- The source is of a predicate without a sort or a limit that holds of the same photos. -/
def Tests (source : Text) (holds : Image → Bool) : Prop :=
  ∃ q, CompiledQuery.ofSource source = .ok q ∧ q.query.predicate.isSome ∧ q.query.sort = none ∧
    q.query.limit = none ∧ ∀ photo, q.holds photo = holds photo

/-- A compiled source is the source's query, with its test and its ranking. -/
theorem CompiledQuery.ofSource_eq_ok {source : Text} {q : CompiledQuery} :
    ofSource source = .ok q ↔ Query.ofSource source = .ok q.query ∧
      q.query.test = .ok q.holds ∧ q.query.ranking? = .ok q.ranking := by
  constructor
  · intro h
    obtain ⟨query, read, h⟩ := bind_eq_ok.mp h
    obtain ⟨holds, tested, h⟩ := bind_eq_ok.mp h
    obtain ⟨ranking, ranked, h⟩ := bind_eq_ok.mp h
    cases h
    exact ⟨read, tested, ranked⟩
  · rintro ⟨read, tested, ranked⟩
    rw [ofSource, read, ok_bind, Query.compile, tested, ok_bind, ranked, ok_bind]

/-- The words of a predicate's source derive its tree, at a cost that the depth pays for. -/
theorem IsPredicate.exists_reads {depth : Nat} {source : Text} {q : CompiledQuery}
    (h : IsPredicate depth source q) (hd : depth ≤ maxNestingDepth) :
    ∃ (body : List Token) (e : Expr) (n : Nat), Run 0 source body source.length [] ∧ n ≤ depth ∧
      e.predicate = .ok q.holds ∧
      Reads .disjunction (body.map Token.word) e.erase n := by
  obtain ⟨compiled, selects, unsorted, unlimited, stream, query, streamed, shallow⟩ := h
  obtain ⟨read, tested, -⟩ := CompiledQuery.ofSource_eq_ok.mp compiled
  obtain ⟨⟨predicate, sort, limit⟩, holds, ranking⟩ := q
  obtain ⟨e, rfl⟩ := Option.isSome_iff_exists.mp selects
  obtain rfl : sort = none := unsorted
  obtain rfl : limit = none := unlimited
  obtain ⟨body, run, whole⟩ := Query.exists_run read
  rw [run.ofSource] at streamed
  cases streamed
  -- reading at the lower depth finds the same query
  obtain ⟨n, hn, derives⟩ := @queryWithin_sound _ _ _ (.endOf source) run.shaped rfl shallow
  have same := queryWithin_complete run.kind_ne_eof derives (Nat.le_trans hn hd)
  rw [← TokenStream.query, whole] at same
  cases same
  obtain ⟨m, hm, reads⟩ := derives.predicate.exists_reads run.shaped
  exact ⟨body, e, m, run, Nat.le_trans hm hn, tested, reads⟩

/-- A text whose words derive a predicate is a source of it. -/
theorem tests_of_reads {text : Text} {words : List Word} {e : Expr} {n : Nat}
    {holds : Image → Bool} (writes : Writes text words)
    (reads : Reads .disjunction words e.erase n) (hn : n ≤ maxNestingDepth)
    (he : e.predicate = .ok holds) : Tests text holds := by
  obtain ⟨body, same, run⟩ := writes.exists_run
  obtain ⟨e', read, erased⟩ := reads.ofSource run same hn
  have alike := Expr.predicate_alike (Expr.alike_of_erase_eq erased)
  rw [he] at alike
  generalize tested : e'.predicate = result at alike
  cases alike with
  | ok same =>
    subst same
    exact ⟨⟨⟨some e', none, none⟩, _, none⟩,
      CompiledQuery.ofSource_eq_ok.mpr ⟨read, tested, rfl⟩, rfl, rfl, rfl, fun _ => rfl⟩

/-! ### Composed sources -/

/-- A source in parentheses is read as its words in parentheses. -/
theorem Writes.grouped {source : Text} {body : List Token}
    (h : Run 0 source body source.length []) :
    Writes (ofString "(" ++ source ++ ofString ")") (Word.grouped (body.map Token.word)) := by
  rw [List.append_assoc]
  exact (mark (by decide : (.leftParen, '(') ∈ marks)).append (.closed h)

/-- A keyword with a space behind it is read as it. -/
theorem Writes.keyword (k : Keyword) :
    Writes (ofString k.spelling ++ [unit ' ']) [.keyword k] :=
  .spaced (Word.spells_keyword k) (by decide)

theorem Writes.space : Writes [unit ' '] [] := .blank (by decide)

/-- Tests that hold of the same photos are the same. -/
theorem Tests.of_eq {text : Text} {holds holds' : Image → Bool} (h : Tests text holds)
    (same : ∀ photo, holds photo = holds' photo) : Tests text holds' := by
  obtain ⟨q, compiled, selects, unsorted, unlimited, value⟩ := h
  exact ⟨q, compiled, selects, unsorted, unlimited, fun photo => (value photo).trans (same photo)⟩

section

variable {source source₁ source₂ : Text} {q q₁ q₂ : CompiledQuery}

/-- Two predicates in parentheses, with a connective between them, are joined by it. -/
theorem IsPredicate.joined (h₁ : IsPredicate 253 source₁ q₁) (h₂ : IsPredicate 253 source₂ q₂)
    (connective : Connective) :
    Tests (ofString "(" ++ source₁ ++ ofString ")" ++ ([unit ' '] ++
        (ofString connective.keyword.spelling ++ [unit ' '] ++
          (ofString "(" ++ source₂ ++ ofString ")"))))
      fun photo => connective.holds (q₁.holds photo) (q₂.holds photo) := by
  obtain ⟨body₁, e₁, n₁, run₁, hn₁, tested₁, reads₁⟩ := h₁.exists_reads (by decide)
  obtain ⟨body₂, e₂, n₂, run₂, hn₂, tested₂, reads₂⟩ := h₂.exists_reads (by decide)
  have writes := (Writes.grouped run₁).append
    (Writes.space.append ((Writes.keyword connective.keyword).append (.grouped run₂)))
  have reads := Reads.logical connective reads₁.group reads₂.group
  rw [← Expr.erase_logical connective 0] at reads
  have cost : chainCost [n₁ + 1, n₂ + 1] ≤ maxNestingDepth := by
    rw [maxNestingDepth, chainCost_cons_le_iff, chainCost_singleton]
    omega
  obtain ⟨holds, tested, value⟩ := Expr.predicate_logical connective 0 tested₁ tested₂
  exact (tests_of_reads writes reads cost tested).of_eq value

/-- A predicate in parentheses with `not` in front is negated, and with two of them it is as it
was. -/
theorem IsPredicate.negated (h : IsPredicate 253 source q) :
    Tests (ofString "not" ++ [unit ' '] ++ (ofString "(" ++ source ++ ofString ")"))
      (fun photo => !q.holds photo) ∧
    Tests (ofString "not" ++ [unit ' '] ++ (ofString "not" ++ [unit ' '] ++
      (ofString "(" ++ source ++ ofString ")"))) q.holds := by
  obtain ⟨body, e, n, run, hn, tested, reads⟩ := h.exists_reads (by decide)
  have depth : n + 1 + 1 + 1 ≤ maxNestingDepth := by
    rw [maxNestingDepth]
    omega
  have once := (Writes.keyword .not).append (.grouped run)
  have readsOnce := Reads.negation reads.group.unary
  rw [← Expr.erase_negation 0] at readsOnce
  have readsTwice := Reads.negation readsOnce
  rw [← Expr.erase_negation 0] at readsTwice
  obtain ⟨holds, negated, value⟩ := Expr.predicate_negation 0 tested
  obtain ⟨holds', twice, value'⟩ := Expr.predicate_negation 0 negated
  refine ⟨?_, ?_⟩
  · exact (tests_of_reads once readsOnce.disjunction (by omega) negated).of_eq value
  · refine (tests_of_reads ((Writes.keyword .not).append once) readsTwice.disjunction depth
      twice).of_eq fun photo => ?_
    rw [value', value, Bool.not_not]

/-- **Sources compose.**  Two sources of predicates that nest to 253 at most, each in parentheses,
with `and` or `or` between them, are a source of their conjunction or disjunction; one of them in
parentheses with `not` in front is a source of its negation, and with another `not` in front, of
itself. -/
theorem IsPredicate.composes (h₁ : IsPredicate 253 source₁ q₁) (h₂ : IsPredicate 253 source₂ q₂) :
    Tests (ofString "(" ++ source₁ ++ ofString ") and (" ++ source₂ ++ ofString ")")
      (fun photo => q₁.holds photo && q₂.holds photo) ∧
    Tests (ofString "(" ++ source₁ ++ ofString ") or (" ++ source₂ ++ ofString ")")
      (fun photo => q₁.holds photo || q₂.holds photo) ∧
    Tests (ofString "not (" ++ source₁ ++ ofString ")") (fun photo => !q₁.holds photo) ∧
    Tests (ofString "not not (" ++ source₁ ++ ofString ")") q₁.holds := by
  have conjunction := h₁.joined h₂ .and
  have disjunction := h₁.joined h₂ .or
  obtain ⟨negation, double⟩ := h₁.negated
  simp only [List.append_assoc] at conjunction disjunction negation double ⊢
  exact ⟨conjunction, disjunction, negation, double⟩

/-- A source is known to be of a predicate by running the compiler and the grammar on it. -/
theorem IsPredicate.exists_of_run {depth : Nat} {source : Text} {stream : TokenStream}
    (hc : (CompiledQuery.ofSource source).map
      (fun q => (q.query.predicate.isSome, q.query.sort, q.query.limit)) = .ok (true, none, none))
    (hs : TokenStream.ofSource source = .ok stream)
    (hq : (stream.queryWithin depth).map Query.limit = .ok none) :
    ∃ q, IsPredicate depth source q := by
  obtain ⟨q, compiled, parts⟩ := map_eq_ok.mp hc
  obtain ⟨query, shallow, -⟩ := map_eq_ok.mp hq
  obtain ⟨selects, parts⟩ := Prod.mk.inj parts
  obtain ⟨unsorted, unlimited⟩ := Prod.mk.inj parts
  exact ⟨q, compiled, selects, unsorted, unlimited, stream, query, hs, shallow⟩

/-- `width > 3 or width < 2` and `contains(filename, 'a')` compose. -/
theorem IsPredicate.composes_width_contains :
    let source₁ := ofString "width > 3 or width < 2"
    let source₂ := ofString "contains(filename, 'a')"
    ∃ q₁ q₂, IsPredicate 253 source₁ q₁ ∧ IsPredicate 253 source₂ q₂ ∧
      Tests (ofString "(" ++ source₁ ++ ofString ") and (" ++ source₂ ++ ofString ")")
        (fun photo => q₁.holds photo && q₂.holds photo) ∧
      Tests (ofString "(" ++ source₁ ++ ofString ") or (" ++ source₂ ++ ofString ")")
        (fun photo => q₁.holds photo || q₂.holds photo) ∧
      Tests (ofString "not (" ++ source₁ ++ ofString ")") (fun photo => !q₁.holds photo) ∧
      Tests (ofString "not not (" ++ source₁ ++ ofString ")") q₁.holds := by
  intro source₁ source₂
  let stream (source : Text) : TokenStream :=
    ⟨(Scan.ofText source).tokens.dropLast, source.length⟩
  obtain ⟨q₁, h₁⟩ : ∃ q, IsPredicate 253 source₁ q :=
    @IsPredicate.exists_of_run 253 source₁ (stream source₁) (by decide +kernel)
      (by decide +kernel) (by decide +kernel)
  obtain ⟨q₂, h₂⟩ : ∃ q, IsPredicate 253 source₂ q :=
    @IsPredicate.exists_of_run 253 source₂ (stream source₂) (by decide +kernel)
      (by decide +kernel) (by decide +kernel)
  exact ⟨q₁, q₂, h₁, h₂, h₁.composes h₂⟩

end

end PhotoQuery
