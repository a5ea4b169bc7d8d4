import PhotoQuery.Diagnosis
import PhotoQuery.Expr.Compile
import PhotoQuery.Query.Parser
import PhotoQuery.Sort.Stable

/-!
# Query — compiled queries

A compiled query is a query with its predicate as a test of photos and its sort clause as a ranking.
It can be used any number of times: to test a photo, to order two, and to select from a list.
Selecting filters, then sorts, then cuts off at the limit.

A source with a wrong predicate and a wrong sort path is refused for its predicate.
`Query.complaint?` says what is wrong with a source in full; a blank source has a wording of its own
there.
-/

namespace PhotoQuery

/-- A query, ready to be used. -/
structure CompiledQuery where
  query : Query
  holds : Image → Bool
  ranking : Option Ranking

/-- The test that a query selects by; without a predicate every photo passes. -/
def Query.test (query : Query) : Except Problem (Image → Bool) :=
  match query.predicate with
  | none => .ok fun _ => true
  | some e => e.predicate

/-- The ranking that a query asks for, if it has a sort clause. -/
def Query.ranking? (query : Query) : Except Problem (Option Ranking) :=
  match query.sort with
  | none => .ok none
  | some clause => (reportAt clause.position (Ranking.ofClause clause)).map some

/-- The query with its names looked up and its kinds checked. -/
def Query.compile (query : Query) : Except Problem CompiledQuery := do
  let holds ← query.test
  let ranking ← query.ranking?
  .ok ⟨query, holds, ranking⟩

namespace CompiledQuery

/-- The compiled query of a source. -/
def ofSource (source : Text) : Except Problem CompiledQuery := do
  let query ← Query.ofSource source
  query.compile

/-- The query asks for all photos. -/
def selectsAll (q : CompiledQuery) : Bool := q.query.predicate.isNone

/-- The order of two photos under the sort clause; without one they tie. -/
def order? (q : CompiledQuery) (a b : Image) : Option Ordering :=
  match q.ranking with
  | none => some .eq
  | some ranking => ranking.order? a b

/-- The items whose photos the query selects, in its order and up to its limit. -/
def applyOn {α : Type} (q : CompiledQuery) (photo : α → Image) (items : List α) : List α :=
  let selected := items.filter fun x => q.holds (photo x)
  let sorted := match q.ranking with
    | none => selected
    | some ranking => ranking.sortOn photo selected
  match q.query.limit with
  | none => sorted
  | some limit => sorted.take limit

/-- The photos that the query selects, in its order and up to its limit. -/
def apply (q : CompiledQuery) (photos : List Image) : List Image := q.applyOn id photos

end CompiledQuery

/-- What is wrong with a source, in full; nothing if it is a query. -/
def Query.complaint? (source : Text) : Option Text :=
  if source.trim.isEmpty then some (.ofString "Filter expression cannot be empty")
  else
    match CompiledQuery.ofSource source with
    | .ok _ => none
    | .error problem => some (problem.detail source)

/-- The source is a query. -/
def Query.isValid (source : Text) : Bool := (complaint? source).isNone

end PhotoQuery
