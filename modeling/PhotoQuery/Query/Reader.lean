import PhotoQuery.Expr.Descent
import PhotoQuery.Query.Parser

/-!
# Query — readers

A reader is made for one list of tokens, which must have an end as its last token, and can read it
any number of times.  It begins each time at the front of the list and at depth zero, wherever the
time before has left its cursor.  What it reads is the query that the grammar has for the stream of
the list; a reader finds it with one cursor, within a number of steps.
-/

namespace PhotoQuery

namespace Walk

variable (tokens : List Token)

/-- Reads the direction of a sort clause. -/
def direction : Walk Direction := do
  if ← accept tokens (.keyword .desc) then return .descending
  else
    let _ ← accept tokens (.keyword .asc)
    return .ascending

/-- Reads a sort clause behind the word `sort`. -/
def sortBody (position steps : Nat) : Walk SortClause := do
  let first ← expect tokens .identifier .expectedSortPath
  let path ← segments tokens steps
  let direction ← direction tokens
  return ⟨first.value :: path, direction, position⟩

/-- Reads a sort clause, if a bar and `sort` come next. -/
def sortClause (steps : Nat) : Walk (Option SortClause) := do
  if (← peek tokens).kind = .pipe then
    if (← peekNext tokens).kind = .keyword .sort then
      let _ ← advance tokens
      let word ← advance tokens
      return some (← sortBody tokens word.position steps)
    else return none
  else return none

/-- Reads a limit, if a bar comes next. -/
def limitClause : Walk (Option Nat) := do
  if ← accept tokens .pipe then
    let _ ← expect tokens (.keyword .limit) .expectedClause
    let digits ← expect tokens .integer .expectedLimit
    return some (← ofExcept (Parser.limitOf digits))
  else return none

/-- Reads what a query selects: `all`, or a disjunction. -/
def selection (steps : Nat) : Walk (Option Expr) := do
  if ← accept tokens (.keyword .all) then return none
  else return some (← chain tokens .or steps)

/-- Nothing is left. -/
def finish : Walk Unit := do
  let t ← peek tokens
  if t.kind = .eof then return () else refuse t.position (.unexpectedToken t.describe)

/-- Reads a query, from the front of the list. -/
def query (steps : Nat) : Walk Query := do
  set (Cursor.start 0 0)
  if (← peek tokens).kind = .eof then refuse 0 .emptyExpression
  else
    let predicate ← selection tokens steps
    let sort ← sortClause tokens steps
    let limit ← limitClause tokens
    finish tokens
    return ⟨predicate, sort, limit⟩

end Walk

/-- A list of tokens that ends in an end, and where its reader is. -/
structure QueryReader where
  tokens : List Token
  closed : tokens.getLast?.any (·.kind = .eof)
  cursor : Cursor

namespace QueryReader

/-- A new reader for the list, if it ends in an end. -/
def ofTokens? (tokens : List Token) : Option QueryReader :=
  if closed : tokens.getLast?.any (·.kind = .eof) then some ⟨tokens, closed, .start 0 0⟩ else none

/-- Reads the list within the steps: what comes of it, and the reader afterwards. -/
def parse (steps : Nat) (reader : QueryReader) : Option (Except Halt Query × QueryReader) :=
  ((Walk.query reader.tokens steps).run reader.cursor).map fun (outcome, cursor) =>
    (outcome, { reader with cursor })

/-- What comes of reading the list a number of times, one after the other, each within the steps. -/
def answers (steps : Nat) (reader : QueryReader) : Nat → Option (List (Except Halt Query))
  | 0 => some []
  | n + 1 => do
    let (outcome, reader) ← reader.parse steps
    return outcome :: (← reader.answers steps n)

end QueryReader

end PhotoQuery
