import PhotoQuery.Expr.Parser
import PhotoQuery.Query.Basic
import PhotoQuery.Token.Stream

/-!
# Query — reading queries

A query is `all` or a disjunction; then, after a bar, a sort clause; and, after another bar, a
limit.  Both clauses may be missing, and they come in this order.  A sort clause is `sort`, a
property path, and the direction `asc` or `desc`; without a direction the order ascends.  A limit is
`limit` and a positive integer below `2 ^ 53`.
-/

namespace PhotoQuery

namespace Parser

/-- Reads the direction of a sort clause. -/
def direction : Parser Direction
  | [] => .ok (.ascending, [])
  | t :: rest =>
    if t.kind = .keyword .desc then .ok (.descending, rest)
    else if t.kind = .keyword .asc then .ok (.ascending, rest)
    else .ok (.ascending, t :: rest)

/-- Reads a sort clause behind the word `sort`. -/
def sortBody (stop position : Nat) : Parser SortClause := fun tokens => do
  let (first, rest) ← expect stop .identifier .expectedSortPath tokens
  let (path, rest) ← segments stop rest
  let (direction, rest) ← direction rest
  .ok (⟨first.value :: path, direction, position⟩, rest)

/-- Reads a sort clause, if a bar and `sort` come next. -/
def sortClause (stop : Nat) : Parser (Option SortClause)
  | bar :: word :: rest =>
    if bar.kind = .pipe ∧ word.kind = .keyword .sort then
      (sortBody stop word.position rest).map fun (clause, rest) => (some clause, rest)
    else .ok (none, bar :: word :: rest)
  | tokens => .ok (none, tokens)

/-- Reads the number of a limit. -/
def limitOf (t : Token) : Except (Located SyntaxError) Nat :=
  let number := Number.ofText t.value
  if number.isNonPositive then .error ⟨t.position, .limitNotPositive⟩
  else
    match number.safeInteger? with
    | none => .error ⟨t.position, .limitTooLarge t.value⟩
    | some limit => .ok limit.toNat

/-- Reads a limit, if a bar comes next. -/
def limitClause (stop : Nat) : Parser (Option Nat)
  | [] => .ok (none, [])
  | bar :: rest =>
    if bar.kind = .pipe then do
      let (_, rest) ← expect stop (.keyword .limit) .expectedClause rest
      let (digits, rest) ← expect stop .integer .expectedLimit rest
      let limit ← limitOf digits
      .ok (some limit, rest)
    else .ok (none, bar :: rest)

/-- Reads what a query selects: `all`, or a disjunction that nests to the depth. -/
def selection (stop depth : Nat) : Parser (Option Expr)
  | [] => .error ⟨0, .emptyExpression⟩
  | t :: rest =>
    if t.kind = .keyword .all then .ok (none, rest)
    else ((level stop depth).disjunction (t :: rest)).map fun (e, rest) => (some e, rest)

/-- Nothing is left. -/
def finish : List Token → Except (Located SyntaxError) Unit
  | [] => .ok ()
  | t :: _ => .error ⟨t.position, .unexpectedToken t.describe⟩

end Parser

/-- The query that a stream of tokens forms, if it nests no deeper than the depth. -/
def TokenStream.queryWithin (depth : Nat) (stream : TokenStream) :
    Except (Located SyntaxError) Query := do
  let (predicate, rest) ← Parser.selection stream.stop depth stream.tokens
  let (sort, rest) ← Parser.sortClause stream.stop rest
  let (limit, rest) ← Parser.limitClause stream.stop rest
  Parser.finish rest
  .ok ⟨predicate, sort, limit⟩

/-- The query that a stream of tokens forms. -/
def TokenStream.query (stream : TokenStream) : Except (Located SyntaxError) Query :=
  stream.queryWithin maxNestingDepth

/-- The query that a source is written for. -/
def Query.ofSource (source : Text) : Except Problem Query := do
  let stream ← (TokenStream.ofSource source).mapError .lexical
  stream.query.mapError .syntactic

end PhotoQuery
