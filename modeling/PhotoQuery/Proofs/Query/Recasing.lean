import PhotoQuery.Proofs.Grammar.Recasing
import PhotoQuery.Proofs.Query.Composition

/-!
# Query — capital and small letters

Queries do not tell capital letters from small ones, except in strings and in the names of raw tags.
A source that is a query is one in any other case of its letters too, if these two are kept, and the
two queries cannot be told apart by what they answer (`CompiledQuery.ofSource_recased`).

The proof goes through the stages: the tokens are the same up to the case of words
(`Run.recased`), they derive the same tree up to the case of names (`DerivesQuery.recased`), and
names are found in any case (`Expr.Recased.predicate`).
-/

namespace PhotoQuery

open Text Outcome Grammar

/-! ### Recased queries -/

/-- A renamed path has the key that the path has. -/
theorem Property.Renames.keyReader {path path' : List Text} (h : Property.Renames path path')
    {key : Image → Option Value} (hk : PhotoQuery.keyReader path = .ok key) :
    PhotoQuery.keyReader path' = .ok key := by
  obtain ⟨property, found, hk⟩ := map_eq_ok.mp hk
  rw [PhotoQuery.keyReader, Property.ofPath_eq_ok.mpr (h property (Property.ofPath_eq_ok.mp found))]
  exact congrArg Except.ok hk

theorem Query.Recased.test {q q' : Query} (h : q.Recased q') {holds : Image → Bool}
    (ht : q.test = .ok holds) : q'.test = .ok holds := by
  obtain ⟨predicate, sort, limit⟩ := q
  obtain ⟨predicate', sort', limit'⟩ := q'
  obtain ⟨hp, -, -⟩ := h
  cases hp with
  | none => exact ht
  | some he => exact he.predicate ht

theorem Query.Recased.ranking? {q q' : Query} (h : q.Recased q') {ranking : Option Ranking}
    (hr : q.ranking? = .ok ranking) : q'.ranking? = .ok ranking := by
  obtain ⟨predicate, sort, limit⟩ := q
  obtain ⟨predicate', sort', limit'⟩ := q'
  obtain ⟨-, hs, -⟩ := h
  cases hs with
  | none => exact hr
  | @some s s' clause =>
    obtain ⟨rank, found, hr⟩ := map_eq_ok.mp hr
    obtain ⟨key, read, rfl⟩ := map_eq_ok.mp (reportAt_eq_ok.mp found)
    simp only [Query.ranking?, Ranking.ofClause, clause.renames.keyReader read, clause.direction]
    exact congrArg Except.ok hr

/-! ### Answers -/

/-- The queries give the same answers: about themselves, about photos, and about lists of them. -/
structure CompiledQuery.SameAnswers (q q' : CompiledQuery) : Prop where
  limit : q'.query.limit = q.query.limit
  direction : q'.query.sort.map SortClause.direction = q.query.sort.map SortClause.direction
  selectsAll : q'.selectsAll = q.selectsAll
  holds : ∀ photo, q'.holds photo = q.holds photo
  order? : ∀ a b, q'.order? a b = q.order? a b
  apply : ∀ photos, q'.apply photos = q.apply photos

/-- Recased queries with one test and one ranking give the same answers. -/
theorem Query.Recased.sameAnswers {q q' : Query} (h : q.Recased q') (holds : Image → Bool)
    (ranking : Option Ranking) :
    CompiledQuery.SameAnswers ⟨q, holds, ranking⟩ ⟨q', holds, ranking⟩ := by
  obtain ⟨predicate, sort, limit⟩ := q
  obtain ⟨predicate', sort', limit'⟩ := q'
  obtain ⟨hp, hs, rfl⟩ := h
  refine ⟨rfl, ?_, ?_, fun _ => rfl, fun _ _ => rfl, fun _ => rfl⟩
  · cases hs with
    | none => rfl
    | some clause => exact congrArg some clause.direction
  · cases hp <;> rfl

/-! ### Recased sources -/

/-- The tokens of a recased source are the recased tokens of the source, the ends included. -/
theorem Run.allRecased {source source' : Text} {body : List Token}
    (run : Run 0 source body source.length []) (h : Recases source source') :
    ∃ body', Run 0 source' body' source'.length [] ∧
      Token.AllRecased (· ∈ rawTags false (body ++ [.endOf source])) (body ++ [.endOf source])
        (body' ++ [.endOf source']) := by
  have tokens : (Scan.ofText source).tokens = body ++ [.endOf source] := by
    rw [Scan.ofText, run.scan, Scan.ofTextAt.eq_def]
    rfl
  have kept := h.kept
  rw [tokens] at kept
  obtain ⟨body', each, run'⟩ := run.recased (List.drop_zero ..) h.letters
    fun t ht => kept t (List.mem_append_left _ ht)
  rw [h.letters.length_eq, List.drop_length, List.drop_zero] at run'
  refine ⟨body', run', ?_, fun _ ht => ht⟩
  have last : Token.Recased (· ∈ rawTags false (body ++ [.endOf source])) (.endOf source)
      (.endOf source') := ⟨rfl, h.letters.length_eq.symm, rfl, fun _ => rfl⟩
  exact List.rel_append each (.cons last .nil)

/-- **Queries do not depend on the case of letters.**  A source that is a query stays one, with the
same answers, when letters outside of its strings and the names of its raw tags change their
case. -/
theorem CompiledQuery.ofSource_recased {source source' : Text} {q : CompiledQuery}
    (h : ofSource source = .ok q) (recased : Recases source source') :
    ∃ q', ofSource source' = .ok q' ∧ q.SameAnswers q' := by
  obtain ⟨read, tested, ranked⟩ := ofSource_eq_ok.mp h
  obtain ⟨body, n, run, hn, derives⟩ := Query.exists_derives read
  obtain ⟨body', run', tokens⟩ := run.allRecased recased
  obtain ⟨query', derives', query⟩ := derives.recased tokens
  have read' : Query.ofSource source' = .ok query' := by
    rw [run'.query]
    exact mapError_eq_ok.mpr (queryWithin_complete run'.kind_ne_eof derives' hn)
  exact ⟨⟨query', q.holds, q.ranking⟩,
    ofSource_eq_ok.mpr ⟨read', query.test tested, query.ranking? ranked⟩, query.sameAnswers _ _⟩

/-- Keywords, fields and functions in other cases, and a string and a raw tag that are kept. -/
theorem CompiledQuery.ofSource_recased_shouted :
    let source := ofString "not contains(exif.raw.Lens, 'Xx') | sort exif.iso desc"
    let source' := ofString "Not CONTAINS(Exif.RAW.Lens, 'Xx') | SORT EXIF.ISO Desc"
    ∃ q, ofSource source = .ok q ∧ Recases source source' ∧
      ∃ q', ofSource source' = .ok q' ∧ q.SameAnswers q' := by
  intro source source'
  have compiles : (ofSource source).map (fun _ => ()) = .ok () := by decide +kernel
  have recased : Recases source source' := ⟨by decide +kernel, by decide +kernel⟩
  obtain ⟨q, h, -⟩ := map_eq_ok.mp compiles
  exact ⟨q, h, recased, ofSource_recased h recased⟩

end PhotoQuery
