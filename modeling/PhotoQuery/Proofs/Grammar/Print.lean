import PhotoQuery.Proofs.Grammar.Query
import PhotoQuery.Proofs.Token.Words

/-!
# Grammar — printing

A query is printed as words with single spaces between them.  Every operand of a connective, a
comparison or a negation stands in parentheses, so no precedence is relied on; strings are quoted,
and a decimal is printed as the spelling that is chosen for it.

The words of a tree derive, wherever they stand, the same tree with other positions, and nest to
the cost `Expr.cost` (`Expr.Printable.reads`).  So a printed query is read as it was, up to
positions, if it nests no deeper than `maxNestingDepth` (`ofSource_print`).
-/

namespace PhotoQuery

open Text Grammar

/-! ### Words -/

namespace Word

/-- `(`. -/
def opening : Word := ⟨.leftParen, [unit '(']⟩

/-- `)`. -/
def closing : Word := ⟨.rightParen, [unit ')']⟩

/-- `,`. -/
def comma : Word := ⟨.comma, [unit ',']⟩

/-- `.`. -/
def dot : Word := ⟨.dot, [unit '.']⟩

/-- `|`. -/
def bar : Word := ⟨.pipe, [unit '|']⟩

/-- A keyword in small letters. -/
def keyword (k : Keyword) : Word := ⟨.keyword k, .ofString k.spelling⟩

/-- A comparison symbol. -/
def symbol (op : Comparison) : Word := ⟨.comparison op, .ofString op.symbol⟩

/-- An identifier. -/
def name (n : Text) : Word := ⟨.identifier, n⟩

/-- Words between parentheses. -/
def grouped (words : List Word) : List Word := opening :: (words ++ [closing])

/-- The segments of a path behind its first one. -/
def segments (names : List Text) : List Word := names.flatMap fun n => [dot, name n]

/-- A path. -/
def path : List Text → List Word
  | [] => []
  | first :: names => name first :: segments names

/-- A literal.  A decimal has the spelling that is chosen for it. -/
def literal (decimals : Number → Text) : Constant → Word
  | .string text => ⟨.string, text⟩
  | .integer number => ⟨.integer, ofNat (number.safeInteger?.getD 0).toNat⟩
  | .decimal number => ⟨.decimal, decimals number⟩
  | .boolean truth => keyword (if truth then .true else .false)
  | .null => keyword .null

end Word

/-! ### Trees -/

namespace Expr

section

variable (decimals : Number → Text)

mutual

/-- The words that a tree is printed as. -/
def words : Expr → List Word
  | .logical connective _ left right =>
    Word.grouped (words left) ++ .keyword connective.keyword :: Word.grouped (words right)
  | .comparison operator _ left right =>
    Word.grouped (words left) ++ .symbol operator :: Word.grouped (words right)
  | .negation _ operand => .keyword .not :: Word.grouped (words operand)
  | .call name _ [] => [.name name, .opening, .closing]
  | .call name _ (first :: more) =>
    .name name :: .opening :: (words first ++ (moreWords more ++ [.closing]))
  | .property path _ => Word.path path
  | .constant value _ => [.literal decimals value]
  | .foreign _ => []

/-- The words that the arguments of a call behind its first one are printed as. -/
def moreWords : List Expr → List Word
  | [] => []
  | e :: es => .comma :: (words e ++ moreWords es)

end

end

mutual

/-- The cost that the words of a tree nest to. -/
def cost : Expr → Nat
  | .logical _ _ left right => chainCost [cost left + 1, cost right + 1]
  | .comparison _ _ left right => max (cost left + 1) (cost right + 1)
  | .negation _ operand => cost operand + 1 + 1
  | .call _ _ args => maxCost (costs args) + 1
  | .property _ _ | .constant _ _ | .foreign _ => 0

/-- The costs of some trees. -/
def costs : List Expr → List Nat
  | [] => []
  | e :: es => cost e :: costs es

end

mutual

/-- The tree with all its positions forgotten. -/
def erase : Expr → Expr
  | .logical connective _ left right => .logical connective 0 (erase left) (erase right)
  | .comparison operator _ left right => .comparison operator 0 (erase left) (erase right)
  | .negation _ operand => .negation 0 (erase operand)
  | .call name _ args => .call name 0 (eraseAll args)
  | .property path _ => .property path 0
  | .constant value _ => .constant value 0
  | .foreign tag => .foreign tag

/-- The trees with all their positions forgotten. -/
def eraseAll : List Expr → List Expr
  | [] => []
  | e :: es => erase e :: eraseAll es

end

end Expr

/-- A word that spells no keyword. -/
def Text.IsName (n : Text) : Prop := n.IsWord ∧ ∀ k : Keyword, n.lower ≠ ofString k.spelling

instance (n : Text) : Decidable n.IsName :=
  decidable_of_iff (n.IsWord ∧ keyword? n = none) (and_congr_right fun _ => keyword?_eq_none)

/-- A constant that some literal denotes; a decimal is denoted by the spelling chosen for it. -/
inductive Constant.Printable (decimals : Number → Text) : Constant → Prop where
  | string (text : Text) : Printable decimals (.string text)
  | integer {n : Nat} (hn : n ≤ maxSafe) : Printable decimals (.integer (.ofNat n))
  | decimal {number : Number} {whole fraction : Text} (hw : whole.IsNumeral)
      (hf : fraction.IsNumeral) (hn : number = .ofFraction whole fraction)
      (hd : decimals number = whole ++ unit '.' :: fraction) :
      Printable decimals (.decimal number)
  | boolean (truth : Bool) : Printable decimals (.boolean truth)
  | null : Printable decimals .null

/-- A tree of the language's nodes whose names, paths and constants can be written. -/
inductive Expr.Printable (decimals : Number → Text) : Expr → Prop where
  | logical {connective : Connective} {position : Nat} {left right : Expr}
      (hl : Printable decimals left) (hr : Printable decimals right) :
      Printable decimals (.logical connective position left right)
  | comparison {operator : Comparison} {position : Nat} {left right : Expr}
      (hl : Printable decimals left) (hr : Printable decimals right) :
      Printable decimals (.comparison operator position left right)
  | negation {position : Nat} {operand : Expr} (h : Printable decimals operand) :
      Printable decimals (.negation position operand)
  | call {name : Text} {position : Nat} {args : List Expr} (hn : name.IsName)
      (ha : ∀ e ∈ args, Printable decimals e) : Printable decimals (.call name position args)
  | property {path : List Text} {position : Nat} (hp : path ≠ []) (hn : ∀ n ∈ path, n.IsName) :
      Printable decimals (.property path position)
  | constant {value : Constant} {position : Nat} (hv : value.Printable decimals) :
      Printable decimals (.constant value position)

/-! ### Queries -/

/-- The words that a sort clause is printed as. -/
def SortClause.words (s : SortClause) : List Word :=
  .bar :: .keyword .sort :: (Word.path s.path ++
    [.keyword (match s.direction with | .ascending => .asc | .descending => .desc)])

/-- The words that a limit is printed as. -/
def limitWords (limit : Nat) : List Word := [.bar, .keyword .limit, ⟨.integer, ofNat limit⟩]

namespace Query

/-- The words that a query is printed as. -/
def words (decimals : Number → Text) (q : Query) : List Word :=
  q.predicate.elim [.keyword .all] (Expr.words decimals) ++
    (q.sort.elim [] SortClause.words ++ q.limit.elim [] limitWords)

/-- The source that a query is printed as. -/
def print (quote : CodeUnit) (decimals : Number → Text) (q : Query) : Text :=
  Word.written quote (q.words decimals)

/-- The cost that the words of a query nest to. -/
def cost (q : Query) : Nat := q.predicate.elim 0 Expr.cost

/-- The query with all its positions forgotten. -/
def erase (q : Query) : Query :=
  ⟨q.predicate.map Expr.erase, q.sort.map fun s => { s with position := 0 }, q.limit⟩

/-- A query whose predicate, path and limit can be written. -/
structure Printable (decimals : Number → Text) (q : Query) : Prop where
  predicate : ∀ e ∈ q.predicate, e.Printable decimals
  sort : ∀ s ∈ q.sort, s.path ≠ [] ∧ ∀ n ∈ s.path, n.IsName
  limit : ∀ n ∈ q.limit, 1 ≤ n ∧ n ≤ maxSafe

end Query

/-! ### The words are lexemes -/

namespace Word

/-- The word is a string, or else a lexeme that is its own value. -/
def Plain (w : Word) : Prop := w.kind = .string ∨ Spells w.kind w.value w.value

theorem plain_mark {kind : TokenKind} {c : Char} (h : (kind, c) ∈ marks) :
    Plain ⟨kind, [unit c]⟩ := .inr (.mark h)

/-- A keyword is spelled by its own spelling. -/
theorem spells_keyword (k : Keyword) :
    Spells (.keyword k) (ofString k.spelling) (ofString k.spelling) := by
  refine .keyword ?_ ?_ <;> cases k <;> decide

theorem plain_keyword (k : Keyword) : (keyword k).Plain := .inr (spells_keyword k)

theorem plain_symbol (op : Comparison) : (symbol op).Plain := .inr (.symbol op)

theorem plain_name {n : Text} (h : n.IsName) : (name n).Plain := .inr (.identifier h.1 h.2)

theorem plain_ofNat (n : Nat) : Plain ⟨.integer, ofNat n⟩ := .inr (.integer (isNumeral_ofNat n))

/-- Parentheses around plain words leave them plain. -/
theorem plain_grouped {words : List Word} (h : ∀ w ∈ words, w.Plain) :
    ∀ w ∈ grouped words, w.Plain := by
  rw [grouped, List.forall_mem_cons, List.forall_mem_append, List.forall_mem_singleton]
  exact ⟨plain_mark (by decide), h, plain_mark (by decide)⟩

theorem plain_path {names : List Text} (h : ∀ n ∈ names, n.IsName) :
    ∀ w ∈ path names, w.Plain := by
  cases names with
  | nil => exact List.forall_mem_nil _
  | cons first names =>
    rw [List.forall_mem_cons] at h
    rw [path, List.forall_mem_cons]
    refine ⟨plain_name h.1, ?_⟩
    intro w hw
    obtain ⟨n, hn, hw⟩ := List.mem_flatMap.mp hw
    rcases List.mem_cons.mp hw with rfl | hw
    · exact plain_mark (by decide)
    · rw [List.mem_singleton.mp hw]
      exact plain_name (h.2 n hn)

/-- A constant that can be written is written plain. -/
theorem plain_literal {decimals : Number → Text} {value : Constant}
    (h : value.Printable decimals) : (literal decimals value).Plain := by
  cases h with
  | string text => exact .inl rfl
  | integer hn => exact plain_ofNat _
  | @decimal number whole fraction hw hf hn hd =>
    exact .inr (.decimal ⟨whole, fraction, hw, hf, hd⟩)
  | boolean truth => exact plain_keyword _
  | null => exact plain_keyword _

end Word

/-- The words of arguments are plain if those of each argument are. -/
theorem Expr.plain_moreWords {decimals : Number → Text} {es : List Expr}
    (h : ∀ e ∈ es, ∀ w ∈ e.words decimals, w.Plain) : ∀ w ∈ moreWords decimals es, w.Plain := by
  induction es with
  | nil => exact List.forall_mem_nil _
  | cons e es ih =>
    rw [List.forall_mem_cons] at h
    rw [moreWords, List.forall_mem_cons, List.forall_mem_append]
    exact ⟨Word.plain_mark (by decide), h.1, ih h.2⟩

/-- Every word of a printed tree is a string, or else a lexeme that is its own value. -/
theorem Expr.Printable.plain {decimals : Number → Text} {e : Expr} (h : e.Printable decimals) :
    ∀ w ∈ e.words decimals, w.Plain := by
  induction h with
  | @logical c _ _ _ _ _ ihl ihr =>
    rw [Expr.words, List.forall_mem_append, List.forall_mem_cons]
    exact ⟨Word.plain_grouped ihl, Word.plain_keyword c.keyword, Word.plain_grouped ihr⟩
  | @comparison op _ _ _ _ _ ihl ihr =>
    rw [Expr.words, List.forall_mem_append, List.forall_mem_cons]
    exact ⟨Word.plain_grouped ihl, Word.plain_symbol op, Word.plain_grouped ihr⟩
  | negation _ ih =>
    rw [Expr.words, List.forall_mem_cons]
    exact ⟨Word.plain_keyword .not, Word.plain_grouped ih⟩
  | @call name position args hn ha ih =>
    have opening : Word.opening.Plain := Word.plain_mark (by decide)
    have closing : Word.closing.Plain := Word.plain_mark (by decide)
    cases args with
    | nil =>
      simp only [Expr.words, List.forall_mem_cons]
      exact ⟨Word.plain_name hn, opening, closing, List.forall_mem_nil _⟩
    | cons first more =>
      rw [List.forall_mem_cons] at ih
      simp only [Expr.words, List.forall_mem_cons, List.forall_mem_append]
      exact ⟨Word.plain_name hn, opening, ih.1, Expr.plain_moreWords ih.2, closing,
        List.forall_mem_nil _⟩
  | property _ hn => exact Word.plain_path hn
  | constant hv =>
    rw [Expr.words, List.forall_mem_singleton]
    exact Word.plain_literal hv

/-- Every word of a printed query is a string, or else a lexeme that is its own value. -/
theorem Query.Printable.plain {decimals : Number → Text} {q : Query} (h : q.Printable decimals) :
    ∀ w ∈ q.words decimals, w.Plain := by
  obtain ⟨predicate, sort, limit⟩ := q
  have bar : Word.bar.Plain := Word.plain_mark (by decide)
  rw [Query.words, List.forall_mem_append, List.forall_mem_append]
  refine ⟨?_, ?_, ?_⟩
  · cases predicate with
    | none => exact List.forall_mem_singleton.mpr (Word.plain_keyword .all)
    | some e => exact (h.predicate e rfl).plain
  · cases sort with
    | none => exact List.forall_mem_nil _
    | some s =>
      simp only [Option.elim_some, SortClause.words, List.forall_mem_cons, List.forall_mem_append]
      exact ⟨bar, Word.plain_keyword .sort, Word.plain_path (h.sort s rfl).2,
        Word.plain_keyword _, List.forall_mem_nil _⟩
  · cases limit with
    | none => exact List.forall_mem_nil _
    | some n =>
      simp only [Option.elim_some, limitWords, List.forall_mem_cons]
      exact ⟨bar, Word.plain_keyword .limit, Word.plain_ofNat n, List.forall_mem_nil _⟩

end PhotoQuery
