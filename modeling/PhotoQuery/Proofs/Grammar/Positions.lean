import PhotoQuery.Proofs.Expr.Positions
import PhotoQuery.Query.Parser

/-!
# Grammar — positions

The parsers put the positions of tokens into trees and errors, and look at nothing of a token but
its kind and its value.  So tokens that differ in their positions only are read alike: as trees that
differ in their positions only, with what is left of the tokens, or as errors of one cause.

Two relations on positions go through the whole grammar.  `R` holds between the positions of the
tokens, and so between those of the trees; `T` holds between the positions of errors, which are
those of tokens and of the end.  There is one lemma for each parser; the levels of the grammar are
alike by induction on the depth (`level_alike`), and a whole query is read alike
(`queryWithin_alike`).
-/

namespace PhotoQuery

open Outcome

variable {R T : Nat → Nat → Prop}

/-! ### Alike tokens -/

/-- The tokens differ in their positions only, and these are related. -/
structure Token.Alike (R : Nat → Nat → Prop) (t t' : Token) : Prop where
  kind : t.kind = t'.kind
  value : t.value = t'.value
  position : R t.position t'.position

/-- Alike tokens are described alike in messages. -/
theorem Token.Alike.describe_eq {t t' : Token} (h : t.Alike R t') : t.describe = t'.describe := by
  rw [Token.describe, Token.describe, h.kind, h.value]

/-- The tokens of two lists are alike, one by one. -/
abbrev Token.AllAlike (R : Nat → Nat → Prop) : List Token → List Token → Prop :=
  List.Forall₂ (Token.Alike R)

/-- Two syntax errors of one cause at related positions.  That nothing stands where a query should
is reported at the start, wherever the tokens are. -/
inductive Fault (T : Nat → Nat → Prop) : Located SyntaxError → Located SyntaxError → Prop where
  | empty : Fault T ⟨0, .emptyExpression⟩ ⟨0, .emptyExpression⟩
  | placed {p p' : Nat} {cause : SyntaxError} (hc : cause ≠ .emptyExpression) (hp : T p p') :
      Fault T ⟨p, cause⟩ ⟨p', cause⟩

theorem Fault.cause_eq {e e' : Located SyntaxError} (h : Fault T e e') : e.cause = e'.cause := by
  cases h <;> rfl

/-- Two syntax errors of one cause at related positions, none of them that nothing stands where a
query should.  These are all that there can be once there is a token to read. -/
inductive Misread (T : Nat → Nat → Prop) : Located SyntaxError → Located SyntaxError → Prop where
  | placed {p p' : Nat} {cause : SyntaxError} (hc : cause ≠ .emptyExpression) (hp : T p p') :
      Misread T ⟨p, cause⟩ ⟨p', cause⟩

theorem Misread.fault {e e' : Located SyntaxError} (h : Misread T e e') : Fault T e e' := by
  cases h with
  | placed hc hp => exact .placed hc hp

theorem Misread.cause_ne {e e' : Located SyntaxError} (h : Misread T e e') :
    e.cause ≠ .emptyExpression := by
  cases h with
  | placed hc hp => exact hc

/-- Errors are reported at tokens and at the end. -/
structure Places (R T : Nat → Nat → Prop) (stop stop' : Nat) : Prop where
  token : ∀ {p p' : Nat}, R p p' → T p p'
  stop : T stop stop'

/-! ### Alike parsers -/

/-- What was read is related, and the tokens that are left are alike. -/
structure Taken (R : Nat → Nat → Prop) {α α' : Type} (S : α → α' → Prop) (r : α × List Token)
    (r' : α' × List Token) : Prop where
  read : S r.1 r'.1
  left : Token.AllAlike R r.2 r'.2

/-- The parsers take alike tokens alike, or refuse them for one cause. -/
def Parser.Alike (R T : Nat → Nat → Prop) {α α' : Type} (S : α → α' → Prop) (p : Parser α)
    (p' : Parser α') : Prop :=
  ∀ {ts ts' : List Token}, Token.AllAlike R ts ts' → Agree (Misread T) (Taken R S) (p ts) (p' ts')

/-- The parsers for expressions of some depth are alike. -/
structure Level.Alike (R T : Nat → Nat → Prop) (l l' : Level) : Prop where
  unary : Parser.Alike R T (Expr.Alike R) l.unary l'.unary
  conjunction : Parser.Alike R T (Expr.Alike R) l.conjunction l'.conjunction
  disjunction : Parser.Alike R T (Expr.Alike R) l.disjunction l'.disjunction
  moreConjuncts : ∀ {e e' : Expr}, e.Alike R e' →
    Parser.Alike R T (Expr.Alike R) (l.moreConjuncts e) (l'.moreConjuncts e')
  moreDisjuncts : ∀ {e e' : Expr}, e.Alike R e' →
    Parser.Alike R T (Expr.Alike R) (l.moreDisjuncts e) (l'.moreDisjuncts e')

namespace Parser

variable {stop stop' : Nat} {inner inner' : Option Level}

/-! ### Tokens and paths -/

/-- A token is expected alike of alike tokens, and missed at the first of them or at the end. -/
theorem expect_alike (places : Places R T stop stop') (kind : TokenKind) {cause : SyntaxError}
    (hc : cause ≠ .emptyExpression) :
    Alike R T (Token.Alike R) (expect stop kind cause) (expect stop' kind cause) := by
  intro ts ts' hts
  cases hts with
  | nil => exact .error (.placed hc places.stop)
  | cons ht hts =>
    simp only [expect, ht.kind]
    split
    · exact .ok ⟨ht, hts⟩
    · exact .error (.placed hc (places.token ht.position))

theorem segments_alike (places : Places R T stop stop') :
    Alike R T Eq (segments stop) (segments stop') := by
  intro ts ts' hts
  fun_induction segments stop ts generalizing ts' with
  -- on the calls of the first parser; the second one takes the same branch
  | case1 =>
    cases hts
    exact .ok ⟨rfl, .nil⟩
  | case2 dot hdot =>
    cases hts with | cons hd hts =>
    cases hts
    rw [segments.eq_def stop']
    simp only [← hd.kind, hdot, if_true]
    exact .error (.placed (by simp) places.stop)
  | case3 dot hdot name rest hname ih =>
    cases hts with | cons hd hts =>
    cases hts with | cons hn hrest =>
    rw [segments.eq_def stop']
    simp only [← hd.kind, ← hn.kind, ← hn.value, hdot, hname, if_true]
    refine (ih hrest).map ?_
    rintro ⟨path, left⟩ ⟨_, left'⟩ ⟨rfl, hleft⟩
    exact ⟨rfl, hleft⟩
  | case4 dot hdot name rest hname =>
    cases hts with | cons hd hts =>
    cases hts with | cons hn hrest =>
    rw [segments.eq_def stop']
    simp only [← hd.kind, ← hn.kind, hdot, hname, if_true, if_false]
    exact .error (.placed (by simp) (places.token hn.position))
  | case5 t rest hdot =>
    cases hts with | cons ht hrest =>
    rw [segments.eq_def stop']
    simp only [← ht.kind, hdot, if_false]
    exact .ok ⟨rfl, .cons ht hrest⟩

/-- Alike paths are properties at related positions. -/
theorem path_alike (places : Places R T stop stop') {first first' : Token}
    (hf : first.Alike R first') :
    Alike R T (Expr.Alike R) (path stop first) (path stop' first') := by
  intro ts ts' hts
  refine (segments_alike places hts).map ?_
  rintro ⟨names, left⟩ ⟨_, left'⟩ ⟨rfl, hleft⟩
  dsimp only
  rw [hf.value]
  exact ⟨.property _ hf.position, hleft⟩

/-! ### Primary expressions -/

/-- A level further down is reached in both or in neither. -/
theorem enter_alike (places : Places R T stop stop') (h : Option.Rel (Level.Alike R T) inner inner')
    {p p' : Nat} (hp : R p p') :
    Agree (Misread T) (Level.Alike R T) (enter inner p) (enter inner' p') := by
  cases h with
  | none => exact .error (.placed (by simp) (places.token hp))
  | some h => exact .ok h

theorem arguments_alike {p p' : Parser Expr} (h : Alike R T (Expr.Alike R) p p') (more : Nat) :
    Alike R T (List.Forall₂ (Expr.Alike R)) (arguments p more) (arguments p' more) := by
  induction more with
  | zero =>
    intro ts ts' hts
    refine (h hts).map ?_
    rintro ⟨e, left⟩ ⟨e', left'⟩ ⟨he, hleft⟩
    exact ⟨.cons he .nil, hleft⟩
  | succ more ih =>
    intro ts ts' hts
    refine (h hts).bind ?_
    rintro ⟨e, left⟩ ⟨e', left'⟩ ⟨he, hleft⟩
    cases hleft with
    | nil => exact .ok ⟨.cons he .nil, .nil⟩
    | @cons t t' rest rest' ht hrest =>
      dsimp only
      rw [ht.kind]
      split
      · refine (ih hrest).bind ?_
        rintro ⟨es, left⟩ ⟨es', left'⟩ ⟨hes, hleft⟩
        exact .ok ⟨.cons he hes, hleft⟩
      · exact .ok ⟨.cons he .nil, .cons ht hrest⟩

theorem argumentList_alike {p p' : Parser Expr} (h : Alike R T (Expr.Alike R) p p') :
    Alike R T (List.Forall₂ (Expr.Alike R)) (argumentList p) (argumentList p') := by
  intro ts ts' hts
  have head : ts.head?.any (·.kind = .rightParen) = ts'.head?.any (·.kind = .rightParen) := by
    cases hts with
    | nil => rfl
    | cons ht _ => simp only [List.head?_cons, Option.any_some, ht.kind]
  simp only [argumentList, head, hts.length_eq]
  split
  · exact .ok ⟨.nil, hts⟩
  · exact arguments_alike h _ hts

theorem call_alike (places : Places R T stop stop') (h : Option.Rel (Level.Alike R T) inner inner')
    {name name' : Token} (hn : name.Alike R name') :
    Alike R T (Expr.Alike R) (call stop inner name) (call stop' inner' name') := by
  intro ts ts' hts
  refine (enter_alike places h hn.position).bind fun level => ?_
  refine (argumentList_alike level.disjunction hts).bind ?_
  rintro ⟨args, left⟩ ⟨args', left'⟩ ⟨hargs, hleft⟩
  dsimp only
  rw [hn.value]
  refine (expect_alike places .rightParen (by simp) hleft).bind ?_
  rintro ⟨closing, left⟩ ⟨closing', left'⟩ ⟨-, hleft⟩
  exact .ok ⟨.ofCall _ hn.position hargs, hleft⟩

/-- Alike integers are the same constant, or both too large. -/
theorem integer_alike (places : Places R T stop stop') {t t' : Token} (ht : t.Alike R t') :
    Agree (Misread T) (Expr.Alike R) (integer t) (integer t') := by
  simp only [integer, ht.value]
  split
  · exact .ok (.constant _ ht.position)
  · exact .error (.placed (by simp) (places.token ht.position))

theorem group_alike (places : Places R T stop stop')
    (h : Option.Rel (Level.Alike R T) inner inner') {t t' : Token} (ht : t.Alike R t')
    (kind : t.kind = .leftParen) {ts ts' : List Token} (hts : Token.AllAlike R ts ts') :
    Agree (Misread T) (Taken R (Expr.Alike R)) (primary stop inner (t :: ts))
      (primary stop' inner' (t' :: ts')) := by
  simp only [primary, ← ht.kind, kind]
  refine (enter_alike places h ht.position).bind fun level => ?_
  refine (level.disjunction hts).bind ?_
  rintro ⟨e, left⟩ ⟨e', left'⟩ ⟨he, hleft⟩
  refine (expect_alike places .rightParen (by simp) hleft).bind ?_
  rintro ⟨closing, left⟩ ⟨closing', left'⟩ ⟨-, hleft⟩
  exact .ok ⟨he, hleft⟩

/-- Calls and paths are read alike; a parenthesis behind the name tells which of them it is. -/
theorem named_alike (places : Places R T stop stop')
    (h : Option.Rel (Level.Alike R T) inner inner') {t t' : Token} (ht : t.Alike R t')
    (kind : t.kind = .identifier) {ts ts' : List Token} (hts : Token.AllAlike R ts ts') :
    Agree (Misread T) (Taken R (Expr.Alike R)) (primary stop inner (t :: ts))
      (primary stop' inner' (t' :: ts')) := by
  simp only [primary, ← ht.kind, kind]
  cases hts with
  | nil => exact path_alike places ht .nil
  | cons hnext hrest =>
    simp only [hnext.kind]
    split
    · exact call_alike places h ht hrest
    · exact path_alike places ht (.cons hnext hrest)

theorem primary_alike (places : Places R T stop stop')
    (h : Option.Rel (Level.Alike R T) inner inner') :
    Alike R T (Expr.Alike R) (primary stop inner) (primary stop' inner') := by
  intro ts ts' hts
  cases hts with
  | nil => exact .error (.placed (by simp) places.stop)
  | @cons t t' ts ts' ht hts =>
    have literal : ∀ value : Constant, Agree (Misread T) (Taken R (Expr.Alike R))
        (.ok (.constant value t.position, ts)) (.ok (.constant value t'.position, ts')) :=
      fun value => .ok ⟨.constant value ht.position, hts⟩
    have refused : Agree (Misread T) (Taken R (Expr.Alike R))
        (.error ⟨t.position, .expectedExpression t.describe⟩)
        (.error ⟨t'.position, .expectedExpression t'.describe⟩) := by
      rw [ht.describe_eq]
      exact .error (.placed (by simp) (places.token ht.position))
    cases kind : t.kind with
    | leftParen => exact group_alike places h ht kind hts
    | identifier => exact named_alike places h ht kind hts
    | string =>
      simp only [primary, ← ht.kind, kind, ← ht.value]
      exact literal _
    | integer =>
      simp only [primary, ← ht.kind, kind]
      exact (integer_alike places ht).map fun he => ⟨he, hts⟩
    | decimal =>
      simp only [primary, ← ht.kind, kind, ← ht.value]
      exact literal _
    | keyword word =>
      simp only [primary, ← ht.kind, kind]
      cases word with
      | true | false | null => exact literal _
      | _ => exact refused
    | _ =>
      simp only [primary, ← ht.kind, kind]
      exact refused

/-! ### Operators -/

theorem comparison_alike (places : Places R T stop stop')
    (h : Option.Rel (Level.Alike R T) inner inner') :
    Alike R T (Expr.Alike R) (comparison stop inner) (comparison stop' inner') := by
  intro ts ts' hts
  refine (primary_alike places h hts).bind ?_
  rintro ⟨l, left⟩ ⟨l', left'⟩ ⟨hl, hleft⟩
  cases hleft with
  | nil => exact .ok ⟨hl, .nil⟩
  | @cons t t' rest rest' ht hrest =>
    simp only [comparisonOf?, ht.kind]
    split
    · exact .ok ⟨hl, .cons ht hrest⟩
    · refine (primary_alike places h hrest).bind ?_
      rintro ⟨r, left⟩ ⟨r', left'⟩ ⟨hr, hleft⟩
      exact .ok ⟨.comparison _ ht.position hl hr, hleft⟩

theorem unary_alike (places : Places R T stop stop')
    (h : Option.Rel (Level.Alike R T) inner inner') :
    Alike R T (Expr.Alike R) (unary stop inner) (unary stop' inner') := by
  intro ts ts' hts
  cases hts with
  | nil => exact comparison_alike places h .nil
  | cons ht hrest =>
    simp only [unary, ht.kind]
    split
    · refine (enter_alike places h ht.position).bind fun level => ?_
      refine (level.unary hrest).bind ?_
      rintro ⟨e, left⟩ ⟨e', left'⟩ ⟨he, hleft⟩
      exact .ok ⟨.negation ht.position he, hleft⟩
    · exact comparison_alike places h (.cons ht hrest)

/-- Chains are read on alike if their operands and what is behind them are. -/
theorem chain_alike (places : Places R T stop stop')
    (h : Option.Rel (Level.Alike R T) inner inner') (connective : Connective) (word : Keyword)
    {operand : Level → Parser Expr} {more : Level → Expr → Parser Expr}
    (ho : ∀ {l l'}, Level.Alike R T l l' → Alike R T (Expr.Alike R) (operand l) (operand l'))
    (hm : ∀ {l l'}, Level.Alike R T l l' → ∀ {e e' : Expr}, e.Alike R e' →
      Alike R T (Expr.Alike R) (more l e) (more l' e')) {first first' : Expr}
    (hf : first.Alike R first') :
    Alike R T (Expr.Alike R) (chain connective word operand more inner first)
      (chain connective word operand more inner' first') := by
  intro ts ts' hts
  cases hts with
  | nil => exact .ok ⟨hf, .nil⟩
  | cons ht hrest =>
    simp only [chain, ht.kind]
    split
    · refine (enter_alike places h ht.position).bind fun level => ?_
      refine (ho level hrest).bind ?_
      rintro ⟨e, left⟩ ⟨e', left'⟩ ⟨he, hleft⟩
      exact hm level (.logical connective ht.position hf he) hleft
    · exact .ok ⟨hf, .cons ht hrest⟩

/-! ### Levels -/

/-- The parsers above alike levels are alike. -/
theorem above_alike (places : Places R T stop stop')
    (h : Option.Rel (Level.Alike R T) inner inner') :
    Level.Alike R T (above stop inner) (above stop' inner') := by
  have moreConjuncts : ∀ {e e' : Expr}, e.Alike R e' →
      Alike R T (Expr.Alike R) (moreConjuncts inner e) (moreConjuncts inner' e') :=
    chain_alike places h .and .and Level.Alike.unary Level.Alike.moreConjuncts
  have moreDisjuncts : ∀ {e e' : Expr}, e.Alike R e' →
      Alike R T (Expr.Alike R) (moreDisjuncts inner e) (moreDisjuncts inner' e') :=
    chain_alike places h .or .or Level.Alike.conjunction Level.Alike.moreDisjuncts
  have conjunction : Alike R T (Expr.Alike R) (conjunction stop inner) (conjunction stop' inner') :=
    fun hts => (unary_alike places h hts).bind fun taken => moreConjuncts taken.read taken.left
  have disjunction : Alike R T (Expr.Alike R) (disjunction stop inner) (disjunction stop' inner') :=
    fun hts => (conjunction hts).bind fun taken => moreDisjuncts taken.read taken.left
  exact ⟨unary_alike places h, conjunction, disjunction, moreConjuncts, moreDisjuncts⟩

/-- **The levels are alike**, at every depth. -/
theorem level_alike (places : Places R T stop stop') (depth : Nat) :
    Level.Alike R T (level stop depth) (level stop' depth) := by
  induction depth with
  | zero => exact above_alike places .none
  | succ depth ih => exact above_alike places (.some ih)

end Parser

/-! ### Queries -/

/-- The sort clauses differ in their positions only, and these are related. -/
structure SortClause.Alike (R : Nat → Nat → Prop) (s s' : SortClause) : Prop where
  path : s.path = s'.path
  direction : s.direction = s'.direction
  position : R s.position s'.position

/-- The queries differ in their positions only, and these are related. -/
structure Query.Alike (R : Nat → Nat → Prop) (q q' : Query) : Prop where
  predicate : Option.Rel (Expr.Alike R) q.predicate q'.predicate
  sort : Option.Rel (SortClause.Alike R) q.sort q'.sort
  limit : q.limit = q'.limit

namespace Parser

variable {stop stop' : Nat}

theorem direction_alike : Alike R T Eq direction direction := by
  intro ts ts' hts
  cases hts with
  | nil => exact .ok ⟨rfl, .nil⟩
  | cons ht hrest =>
    simp only [direction, ht.kind]
    split
    · exact .ok ⟨rfl, hrest⟩
    · split
      · exact .ok ⟨rfl, hrest⟩
      · exact .ok ⟨rfl, .cons ht hrest⟩

theorem sortBody_alike (places : Places R T stop stop') {p p' : Nat} (hp : R p p') :
    Alike R T (SortClause.Alike R) (sortBody stop p) (sortBody stop' p') := by
  intro ts ts' hts
  refine (expect_alike places .identifier (by simp) hts).bind ?_
  rintro ⟨first, left⟩ ⟨first', left'⟩ ⟨hf, hleft⟩
  refine (segments_alike places hleft).bind ?_
  rintro ⟨names, left⟩ ⟨_, left'⟩ ⟨rfl, hleft⟩
  refine (direction_alike hleft).bind ?_
  rintro ⟨d, left⟩ ⟨_, left'⟩ ⟨rfl, hleft⟩
  exact .ok ⟨⟨congrArg (· :: names) hf.value, rfl, hp⟩, hleft⟩

/-- Sort clauses are read alike, or both missing. -/
theorem sortClause_alike (places : Places R T stop stop') :
    Alike R T (Option.Rel (SortClause.Alike R)) (sortClause stop) (sortClause stop') := by
  intro ts ts' hts
  cases hts with
  | nil => exact .ok ⟨.none, .nil⟩
  | cons hb hts =>
    cases hts with
    | nil => exact .ok ⟨.none, .cons hb .nil⟩
    | cons hw hrest =>
      simp only [sortClause, hb.kind, hw.kind]
      split
      · exact (sortBody_alike places hw.position hrest).map
          fun taken => ⟨.some taken.read, taken.left⟩
      · exact .ok ⟨.none, .cons hb (.cons hw hrest)⟩

/-- Alike integers are the same limit, or refused for one cause. -/
theorem limitOf_alike (places : Places R T stop stop') {t t' : Token} (ht : t.Alike R t') :
    Agree (Misread T) Eq (limitOf t) (limitOf t') := by
  have refused : ∀ {cause : SyntaxError}, cause ≠ .emptyExpression →
      Agree (Misread T) (@Eq Nat) (.error ⟨t.position, cause⟩) (.error ⟨t'.position, cause⟩) :=
    fun hc => .error (.placed hc (places.token ht.position))
  simp only [limitOf, ht.value]
  split
  · exact refused (by simp)
  · split
    · exact refused (by simp)
    · exact .ok rfl

theorem limitClause_alike (places : Places R T stop stop') :
    Alike R T Eq (limitClause stop) (limitClause stop') := by
  intro ts ts' hts
  cases hts with
  | nil => exact .ok ⟨rfl, .nil⟩
  | cons hb hrest =>
    simp only [limitClause, hb.kind]
    split
    · refine (expect_alike places (.keyword .limit) (by simp) hrest).bind fun word => ?_
      refine (expect_alike places .integer (by simp) word.left).bind ?_
      rintro ⟨digits, left⟩ ⟨digits', left'⟩ ⟨hd, hleft⟩
      refine (limitOf_alike places hd).bind ?_
      rintro limit _ rfl
      exact .ok ⟨rfl, hleft⟩
    · exact .ok ⟨rfl, .cons hb hrest⟩

theorem selection_alike (places : Places R T stop stop') (depth : Nat) {t t' : Token}
    (ht : t.Alike R t') {ts ts' : List Token} (hts : Token.AllAlike R ts ts') :
    Agree (Misread T) (Taken R (Option.Rel (Expr.Alike R))) (selection stop depth (t :: ts))
      (selection stop' depth (t' :: ts')) := by
  simp only [selection, ht.kind]
  split
  · exact .ok ⟨.none, hts⟩
  · exact ((level_alike places depth).disjunction (.cons ht hts)).map
      fun taken => ⟨.some taken.read, taken.left⟩

theorem finish_alike (places : Places R T stop stop') {ts ts' : List Token}
    (hts : Token.AllAlike R ts ts') : Agree (Misread T) Eq (finish ts) (finish ts') := by
  cases hts with
  | nil => exact .ok rfl
  | cons ht _ =>
    simp only [finish, ht.describe_eq]
    exact .error (.placed (by simp) (places.token ht.position))

end Parser

/-- Alike tokens are read alike, and where there are any, they are not refused for want of them. -/
theorem TokenStream.queryWithin_misread {stream stream' : TokenStream}
    (places : Places R T stream.stop stream'.stop)
    (tokens : Token.AllAlike R stream.tokens stream'.tokens) (nonempty : stream.tokens ≠ [])
    (depth : Nat) :
    Agree (Misread T) (Query.Alike R) (stream.queryWithin depth) (stream'.queryWithin depth) := by
  obtain ⟨ts, stop⟩ := stream
  obtain ⟨ts', stop'⟩ := stream'
  cases tokens with
  | nil => exact absurd rfl nonempty
  | cons ht hts =>
    refine (Parser.selection_alike places depth ht hts).bind fun selected => ?_
    refine (Parser.sortClause_alike places selected.left).bind fun sorted => ?_
    refine (Parser.limitClause_alike places sorted.left).bind fun limited => ?_
    refine (Parser.finish_alike places limited.left).bind fun _ => ?_
    exact .ok ⟨selected.read, sorted.read, limited.read⟩

/-- **Alike tokens are read alike**: as one query, or as no query for one cause. -/
theorem TokenStream.queryWithin_alike {stream stream' : TokenStream}
    (places : Places R T stream.stop stream'.stop)
    (tokens : Token.AllAlike R stream.tokens stream'.tokens) (depth : Nat) :
    Agree (Fault T) (Query.Alike R) (stream.queryWithin depth) (stream'.queryWithin depth) := by
  by_cases empty : stream.tokens = []
  · obtain ⟨ts, stop⟩ := stream
    obtain ⟨ts', stop'⟩ := stream'
    subst empty
    cases tokens
    exact .error .empty
  · exact (queryWithin_misread places tokens empty depth).mono Misread.fault id

end PhotoQuery
