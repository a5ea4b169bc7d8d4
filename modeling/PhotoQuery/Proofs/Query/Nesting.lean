import PhotoQuery.Proofs.Expr.Typing
import PhotoQuery.Proofs.Grammar.Nesting
import PhotoQuery.Proofs.Query.Source

/-!
# Query — how deep the trees of sources get

`maxNestingDepth` bounds what a source nests to, and not the height of its tree.  On a path of the
tree, the negations, calls and connectives are at most that many if the connectives that the path
leaves on their left side are not counted; with those, they are at most
`maxNestingDepth ^ 2 + 2 * maxNestingDepth` (`Query.nesting_bound`).

Neither bound can be lowered.  `not not … a and b` has a path of one node more than
`maxNestingDepth` (`Query.nesting_exceeded`), and a call in front of a conjunction in front of a
disjunction, all of them as long as they may be, nested in each other as deep as they may be, have a
path of all the nodes that the second bound allows (`Query.nesting_attained`).
-/

namespace PhotoQuery

open Text Grammar

/-! ### Chains of one operand -/

namespace Expr

/-- A chain of a first operand and then another one, so many times. -/
def chained (connective : Connective) (first operand : Expr) : Nat → Expr
  | 0 => first
  | n + 1 => .logical connective 0 (chained connective first operand n) operand

/-- The path to the first operand passes the whole chain on its left side. -/
theorem Path.chained {first : Expr} {m k : Nat} (h : first.Path m k) (connective : Connective)
    (operand : Expr) (n : Nat) : (chained connective first operand n).Path (m + n) (k + n) := by
  induction n with
  | zero => exact h
  | succ n ih => exact .left connective 0 ih

/-- Paths do not depend on positions. -/
theorem Path.of_erase {e : Expr} {m k : Nat} (h : e.erase.Path m k) : e.Path m k := by
  induction e using Expr.induct generalizing m k with
  | logical connective position left right ihl ihr =>
    rw [erase] at h
    cases h with
    | left _ _ h => exact .left connective position (ihl h)
    | right _ _ h => exact .right connective position (ihr h)
  | comparison op position left right ihl ihr =>
    rw [erase] at h
    cases h with
    | compared _ _ h => exact .compared op position (ihl h)
    | comparedTo _ _ h => exact .comparedTo op position (ihr h)
  | negation position e ih =>
    rw [erase] at h
    cases h with
    | negated _ h => exact .negated position (ih h)
  | call name position args ih =>
    rw [erase, eraseAll_eq_map] at h
    -- the arguments must be a variable for the cases of the path
    generalize erased : args.map erase = args' at h
    cases h with
    | callEmpty =>
      obtain rfl := List.map_eq_nil_iff.mp erased
      exact .callEmpty name position
    | arg _ _ ha h =>
      subst erased
      obtain ⟨a', ha', rfl⟩ := List.mem_map.mp ha
      exact .arg name position ha' (ih a' ha' h)
  | property path position =>
    rw [erase] at h
    cases h
    exact .property path position
  | constant value position =>
    rw [erase] at h
    cases h
    exact .constant value position
  | foreign tag =>
    rw [erase] at h
    exact h

end Expr

/-- The words of a single operand are a chain, at the same cost. -/
theorem Reads.alone (c : Connective) {words : List Word} {e : Expr} {n : Nat}
    (h : Reads (.operand c) words e n) : Reads (.chain c) words e n := by
  intro ts hts
  obtain ⟨e', derives, erased⟩ := h ts hts
  exact ⟨e', .alone c derives, erased⟩

/-- The words of a chain. -/
def Word.chained (connective : Connective) (first operand : List Word) : Nat → List Word
  | 0 => first
  | n + 1 => chained connective first operand n ++ .keyword connective.keyword :: operand

/-- A chain of operands that cost nothing costs one for each of its connectives, or what its first
operand does. -/
theorem Grammar.chainCost_replicate_le {n c d : Nat} (hc : c ≤ d) (hn : n ≤ d) :
    chainCost (c :: List.replicate n 0) ≤ d := by
  induction n generalizing c d with
  | zero => rwa [List.replicate_zero, chainCost_singleton]
  | succ n ih =>
    obtain ⟨d, rfl⟩ := Nat.exists_eq_add_of_le' hn
    rw [List.replicate_succ, ← Nat.add_assoc, chainCost_cons_le_iff]
    exact ⟨hc, ih (Nat.zero_le _) (Nat.le_add_left n d)⟩

/-- The words of a chain derive it, and their items are as many as its connectives. -/
theorem Reads.chained {c : Connective} {words words' : List Word} {e e' : Expr} {m : Nat}
    (hf : Reads (.operand c) words e m) (ho : Reads (.operand c) words' e' 0) (n : Nat) :
    Reads (.chain c) (Word.chained c words words' n) (Expr.chained c e e' n)
      (chainCost (m :: List.replicate n 0)) := by
  -- by induction on the connectives: the last operand is the last item, since chains are grouped to
  -- the left
  have placed : ∀ ts : List Token, ts.map Token.word = Word.chained c words words' n →
      ∃ used first items, ts = used ++ Item.spread items ∧ Derives (.operand c) used first m ∧
        (∀ i ∈ items, i.mark.kind = .keyword c.keyword) ∧
        (∀ i ∈ items, Derives (.operand c) i.tokens i.tree i.cost) ∧
        items.map Item.cost = List.replicate n 0 ∧
        (Item.joined c first items).erase = Expr.chained c e e' n := by
    induction n with
    | zero =>
      intro ts hts
      obtain ⟨first, derives, erased⟩ := hf ts hts
      exact ⟨ts, first, [], (List.append_nil ts).symm, derives, List.forall_mem_nil _,
        List.forall_mem_nil _, rfl, erased⟩
    | succ n ih =>
      intro ts hts
      obtain ⟨before, ts, rfl, hb, hts⟩ := List.map_eq_append_iff.mp hts
      obtain ⟨mark, own, rfl, hm, ho'⟩ := List.map_eq_cons_iff.mp hts
      obtain ⟨used, first, items, rfl, derives, marks, others, costs, erased⟩ := ih before hb
      obtain ⟨tree, last, rfl⟩ := ho own ho'
      refine ⟨used, first, items ++ [⟨mark, own, tree, 0⟩], ?_, derives, ?_, ?_, ?_, ?_⟩
      · simp [Item.spread]
      · rw [List.forall_mem_append, List.forall_mem_singleton]
        exact ⟨marks, kind_of_word hm⟩
      · rw [List.forall_mem_append, List.forall_mem_singleton]
        exact ⟨others, last⟩
      · rw [List.map_append, costs, List.replicate_succ']
        rfl
      · rw [Item.joined, List.foldl_append, List.foldl_cons, List.foldl_nil, ← Item.joined,
          Expr.erase, erased]
        rfl
  intro ts hts
  obtain ⟨used, first, items, rfl, derives, marks, others, costs, erased⟩ := placed ts hts
  rw [← costs]
  exact ⟨_, .chain derives marks others, erased⟩

theorem Word.plain_chained {c : Connective} {words words' : List Word}
    (h : ∀ w ∈ words, w.Plain) (h' : ∀ w ∈ words', w.Plain) (n : Nat) :
    ∀ w ∈ chained c words words' n, w.Plain := by
  induction n with
  | zero => exact h
  | succ n ih =>
    rw [chained, List.forall_mem_append, List.forall_mem_cons]
    exact ⟨ih, plain_keyword _, h'⟩

/-! ### Other trees -/

/-- The tree with so many negations in front. -/
def Expr.negated (e : Expr) : Nat → Expr
  | 0 => e
  | n + 1 => .negation 0 (negated e n)

/-- A path passes every negation in front. -/
theorem Expr.Path.negations {e : Expr} {m k : Nat} (h : e.Path m k) (n : Nat) :
    (e.negated n).Path (m + n) k := by
  induction n with
  | zero => exact h
  | succ n ih => exact .negated 0 ih

/-- Every negation in front costs a level. -/
theorem Reads.negations {words : List Word} {e : Expr} {m : Nat} (h : Reads .unary words e m)
    (n : Nat) : Reads .unary (List.replicate n (.keyword .not) ++ words) (e.negated n) (m + n) := by
  induction n with
  | zero => exact h
  | succ n ih => exact ih.negation

theorem Reads.name (n : Text) : Reads .primary [.name n] (.property [n] 0) 0 :=
  .property (List.cons_ne_nil n [])

/-- A call with one argument. -/
theorem Reads.callOne {words : List Word} {e : Expr} {n : Nat} (h : Reads .disjunction words e n)
    (name : Text) :
    Reads .primary (.name name :: .opening :: (words ++ [.closing])) (.call name 0 [e])
      (n + 1) := by
  intro ts hts
  obtain ⟨t, ts, rfl, ht, hts⟩ := List.map_eq_cons_iff.mp hts
  obtain ⟨opening, ts, rfl, ho, hts⟩ := List.map_eq_cons_iff.mp hts
  obtain ⟨own, ts, rfl, hown, hts⟩ := List.map_eq_append_iff.mp hts
  obtain ⟨closing, ts, rfl, hc, hts⟩ := List.map_eq_cons_iff.mp hts
  obtain rfl := List.map_eq_nil_iff.mp hts
  obtain rfl : t.value = name := value_of_word ht
  obtain ⟨tree, derives, rfl⟩ := h own hown
  have call := Derives.call (kind_of_word ht) (kind_of_word ho) derives (List.forall_mem_nil _)
    (List.forall_mem_nil _) (kind_of_word hc)
  have cost : maxCost [n] = n := Nat.max_zero n
  rw [List.map_nil, List.map_nil, cost] at call
  exact ⟨_, call, by rw [Expr.erase, Expr.eraseAll, Expr.eraseAll]⟩

/-! ### Sources -/

/-- Plain words with spaces between them are a source of the disjunction that they derive. -/
theorem Reads.ofSource_written {words : List Word} {e : Expr} {n : Nat}
    (h : Reads .disjunction words e n) (plain : ∀ w ∈ words, w.Plain) (hn : n ≤ maxNestingDepth) :
    ∃ e', Query.ofSource (Word.written (unit '"') words) = .ok ⟨some e', none, none⟩ ∧
      e'.erase = e := by
  have spells : ∀ w ∈ words, Spells w.kind w.value (w.text (unit '"')) :=
    fun w hw => Word.spells (by decide) (plain w hw)
  obtain ⟨body, stop, same, run⟩ := exists_run_written spells 0
  obtain rfl : stop = (Word.written (unit '"') words).length := by simpa using run.stop_eq
  exact h.ofSource run same hn

theorem Word.plain_letter {n : String} (h : (ofString n).IsName) :
    ∀ w ∈ [Word.name (ofString n)], w.Plain :=
  List.forall_mem_singleton.mpr (plain_name h)

/-- `not … not a and b`, with so many negations. -/
def Text.negations (n : Nat) : Text :=
  Word.written (unit '"') <| Word.chained .and
    (List.replicate n (.keyword .not) ++ [.name (ofString "a")]) [.name (ofString "b")] 1

example : Text.negations 2 = ofString "not not a and b" := by decide

/-- Negations nest in the first operand alone, and the connective comes on top of them. -/
theorem Query.exists_negations {n : Nat} (hn : n ≤ maxNestingDepth) :
    ∃ e, Query.ofSource (negations n) = .ok ⟨some e, none, none⟩ ∧ e.Path (n + 1) 1 := by
  -- the negations are paid for by the first operand, and the connective costs it nothing
  have first := (Reads.name (ofString "a")).unary.negations n
  have second := (Reads.name (ofString "b")).unary
  have reads := (@Reads.chained .and _ _ _ _ _ first second 1).alone .or
  rw [Nat.zero_add] at reads
  have words : ∀ w ∈ List.replicate n (Word.keyword .not) ++ [.name (ofString "a")], w.Plain := by
    rw [List.forall_mem_append]
    refine ⟨?_, Word.plain_letter (by decide)⟩
    intro w hw
    rw [(List.mem_replicate.mp hw).2]
    exact Word.plain_keyword .not
  have letter : ∀ w ∈ [Word.name (ofString "b")], w.Plain := Word.plain_letter (by decide)
  have plain := @Word.plain_chained .and _ _ words letter 1
  have cost : chainCost (n :: List.replicate 1 0) ≤ maxNestingDepth :=
    chainCost_replicate_le hn (by decide)
  obtain ⟨e, read, erased⟩ := reads.ofSource_written plain cost
  have path := ((Expr.Path.property [ofString "a"] 0).negations n).chained .and
    (.property [ofString "b"] 0) 1
  rw [← erased, Nat.zero_add] at path
  exact ⟨e, read, path.of_erase⟩

/-! ### The bounds -/

/-- **The nesting of a source bounds its tree.**  On a path of the tree, the negations, calls and
connectives are at most `maxNestingDepth` and the connectives that the path leaves on their left
side; and they are at most `maxNestingDepth ^ 2 + 2 * maxNestingDepth`. -/
theorem Query.nesting_bound {source : Text} {q : Query} {e : Expr} {m k : Nat}
    (hq : Query.ofSource source = .ok q) (he : q.predicate = some e) (hp : e.Path m k) :
    m ≤ k + maxNestingDepth ∧
      m ≤ maxNestingDepth * maxNestingDepth + maxNestingDepth + maxNestingDepth := by
  obtain ⟨body, n, -, hn, derives⟩ := Query.exists_derives hq
  obtain ⟨predicate, sort, limit⟩ := q
  obtain rfl : predicate = some e := he
  generalize body ++ [Token.endOf source] = tokens at derives
  cases derives with
  | mk selection =>
    cases selection with
    | some derives =>
      have admits := (derives.path_le hp).mono hn
      exact ⟨admits.charged, admits.all⟩

/-- `not not not a and b` has a path of four nodes, one of which it leaves on its left side. -/
theorem Query.nesting_bound_negations :
    ∃ q e, Query.ofSource (negations 3) = .ok q ∧ q.predicate = some e ∧ e.Path 4 1 ∧
      4 ≤ 1 + maxNestingDepth ∧
      4 ≤ maxNestingDepth * maxNestingDepth + maxNestingDepth + maxNestingDepth := by
  obtain ⟨e, read, path⟩ := @Query.exists_negations 3 (by decide)
  exact ⟨_, e, read, rfl, path, Query.nesting_bound read rfl path⟩

/-- **The nesting does not bound the height of the tree**: the source with as many negations as may
nest is accepted, and a path of its tree has one node more. -/
theorem Query.nesting_exceeded :
    ∃ q e, Query.ofSource (negations maxNestingDepth) = .ok q ∧ q.predicate = some e ∧
      e.Path (maxNestingDepth + 1) 1 := by
  obtain ⟨e, read, path⟩ := Query.exists_negations (Nat.le_refl maxNestingDepth)
  exact ⟨_, e, read, rfl, path⟩

/-! ### The second bound is attained -/

/-- A call, in front of a conjunction, in front of a disjunction, with another such tree for its
argument.  All of them are as long as they may be at the cost. -/
def Expr.deepest : Nat → Expr
  | 0 => .property [ofString "a"] 0
  | n + 1 =>
    chained .or
      (chained .and (.call (ofString "a") 0 [deepest n]) (.property [ofString "a"] 0) (n + 1))
      (.property [ofString "a"] 0) (n + 1)

/-- The words of a deepest tree. -/
def Word.deepest : Nat → List Word
  | 0 => [.name (ofString "a")]
  | n + 1 =>
    chained .or
      (chained .and (.name (ofString "a") :: .opening :: (deepest n ++ [.closing]))
        [.name (ofString "a")] (n + 1))
      [.name (ofString "a")] (n + 1)

theorem Word.plain_deepest (n : Nat) : ∀ w ∈ deepest n, w.Plain := by
  have letter : ∀ w ∈ [Word.name (ofString "a")], w.Plain := plain_letter (by decide)
  induction n with
  | zero => exact letter
  | succ n ih =>
    have call : ∀ w ∈ name (ofString "a") :: .opening :: (deepest n ++ [.closing]), w.Plain := by
      rw [List.forall_mem_cons, List.forall_mem_cons, List.forall_mem_append,
        List.forall_mem_singleton]
      exact ⟨letter _ List.mem_cons_self, plain_mark (by decide), ih, plain_mark (by decide)⟩
    exact plain_chained (plain_chained call letter (n + 1)) letter (n + 1)

/-- A deepest tree has a path of all the nodes that its cost allows. -/
theorem Expr.exists_path_deepest (n : Nat) :
    ∃ k, (deepest n).Path (Category.disjunction.bound n) k := by
  induction n with
  | zero => exact ⟨0, .property [ofString "a"] 0⟩
  | succ n ih =>
    obtain ⟨k, path⟩ := ih
    have call := Path.arg (ofString "a") 0 (List.mem_singleton_self (deepest n)) path
    rw [← Category.bound_primary_succ] at call
    exact ⟨_, (call.chained .and _ (n + 1)).chained .or _ (n + 1)⟩

/-- The words of a deepest tree derive it, at a cost of at most its height. -/
theorem Reads.exists_deepest (n : Nat) :
    ∃ m, m ≤ n ∧ Reads .disjunction (Word.deepest n) (Expr.deepest n) m := by
  have letter := Reads.name (ofString "a")
  induction n with
  | zero => exact ⟨0, Nat.le_refl 0, letter.unary.disjunction⟩
  | succ n ih =>
    obtain ⟨m, hm, reads⟩ := ih
    have call := (reads.callOne (ofString "a")).unary
    have conjunction := @Reads.chained .and _ _ _ _ _ call letter.unary (n + 1)
    have disjunction := @Reads.chained .or _ _ _ _ _ conjunction (letter.unary.alone .and) (n + 1)
    refine ⟨_, ?_, disjunction⟩
    have room : n + 1 ≤ n + 1 := Nat.le_refl _
    exact chainCost_replicate_le (chainCost_replicate_le (Nat.succ_le_succ hm) room) room

/-- **The bound on all paths is attained** by a source. -/
theorem Query.nesting_attained :
    ∃ source q e k, Query.ofSource source = .ok q ∧ q.predicate = some e ∧
      e.Path (maxNestingDepth * maxNestingDepth + maxNestingDepth + maxNestingDepth) k := by
  obtain ⟨m, hm, reads⟩ := Reads.exists_deepest maxNestingDepth
  obtain ⟨e, read, erased⟩ := reads.ofSource_written (Word.plain_deepest _) hm
  obtain ⟨k, path⟩ := Expr.exists_path_deepest maxNestingDepth
  rw [← erased] at path
  exact ⟨_, _, e, k, read, rfl, path.of_erase⟩

end PhotoQuery
