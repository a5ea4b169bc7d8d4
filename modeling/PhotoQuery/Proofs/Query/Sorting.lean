import PhotoQuery.Proofs.Query.Composition

/-!
# Query — sources that only sort

`all` is a query of all photos as they stand, and `all | sort path direction` of all photos, ranked
by the property that the path names (`CompiledQuery.ofSource_sortSource`).  The path is written as
one text, without blanks around its dots: a name in front of a dot is read as it is alone
(`Writes.path`).
-/

namespace PhotoQuery

open Text Outcome Grammar

/-! ### Texts of paths -/

theorem pathText_cons_cons (first second : Text) (names : List Text) :
    pathText (first :: second :: names) = first ++ unit '.' :: pathText (second :: names) := by
  simp only [pathText, join, List.intercalate_cons_cons, List.append_assoc]
  rfl

theorem pathText_singleton (name : Text) : pathText [name] = name := by
  rw [pathText, join, List.intercalate_singleton]

/-- The units of a path are those of its names, and dots. -/
theorem mem_pathText {path : List Text} {u : CodeUnit} (h : u ∈ pathText path) :
    u = unit '.' ∨ ∃ name ∈ path, u ∈ name := by
  induction path with
  | nil => cases h
  | cons first names ih =>
    cases names with
    | nil => exact .inr ⟨first, List.mem_cons_self, pathText_singleton first ▸ h⟩
    | cons second names =>
      rw [pathText_cons_cons, List.mem_append, List.mem_cons] at h
      rcases h with h | rfl | h
      · exact .inr ⟨first, List.mem_cons_self, h⟩
      · exact .inl rfl
      · refine (ih h).imp_right ?_
        rintro ⟨name, hn, hu⟩
        exact ⟨name, List.mem_cons_of_mem _ hn, hu⟩

namespace Writes

variable {name : Text}

/-- A name is read as it is alone in front of a dot. -/
theorem segment (h : name.IsName) : Writes (name ++ [unit '.']) [.name name, .dot] := by
  intro position rest
  have longest : Longest .identifier name name (unit '.' :: rest) := by
    refine longest_iff.mpr ⟨.identifier h.1 h.2, ?_⟩
    rintro u hu
    cases hu
    decide
  obtain ⟨tokens, stop, same, run⟩ :=
    mark (by decide : (.dot, '.') ∈ marks) (position + name.length) rest
  refine ⟨⟨.identifier, name, position⟩ :: tokens, stop, ?_, ?_⟩
  · rw [List.map_cons, same]
    rfl
  · rw [List.append_assoc]
    exact .lexeme longest run

/-- A path with a blank behind it is read as its words. -/
theorem path {names : List Text} (h : ∀ n ∈ names, n.IsName) {u : CodeUnit} (hu : isBlank u) :
    Writes (pathText names ++ [u]) (Word.path names) := by
  induction names with
  | nil => exact blank hu
  | cons first names ih =>
    rw [List.forall_mem_cons] at h
    cases names with
    | nil =>
      rw [pathText_singleton]
      exact spaced (.identifier h.1.1 h.1.2) hu
    | cons second names =>
      have words : Word.path (first :: second :: names) =
          [.name first, .dot] ++ Word.path (second :: names) := rfl
      have text : pathText (first :: second :: names) ++ [u] =
          first ++ [unit '.'] ++ (pathText (second :: names) ++ [u]) := by
        rw [pathText_cons_cons]
        simp
      rw [words, text]
      exact (segment h.1).append (ih h.2)

/-- A source that ends in a lexeme of its own. -/
theorem exists_run_before {text last : Text} {words : List Word} {kind : TokenKind} {value : Text}
    (h : Writes text words) (spells : Spells kind value last) :
    ∃ body, body.map Token.word = words ++ [⟨kind, value⟩] ∧
      Run 0 (text ++ last) body (text ++ last).length [] := by
  obtain ⟨tokens, middle, same, run⟩ := h 0 last
  have longest : Longest kind value last [] := spells.longest barrier_nil
  have final : Run middle (last ++ []) [⟨kind, value, middle⟩] (middle + last.length) [] :=
    .lexeme longest (.refl _ [])
  rw [List.append_nil] at final
  have whole := run.trans final
  obtain stop : middle + last.length = (text ++ last).length := by simpa using whole.stop_eq
  rw [stop] at whole
  refine ⟨_, ?_, whole⟩
  rw [List.map_append, same]
  rfl

end Writes

/-! ### Sources -/

/-- `all` is a query of all photos, as they stand. -/
theorem CompiledQuery.ofSource_all :
    ∃ q, ofSource (ofString "all") = .ok q ∧ q.query.sort = none ∧
      ∀ {α : Type} (photo : α → Image) (items : List α), q.applyOn photo items = items := by
  have parts : (ofSource (ofString "all")).map
      (fun q => (q.query.predicate.isNone, q.query.sort, q.query.limit)) =
      .ok (true, none, none) := by decide +kernel
  obtain ⟨⟨⟨predicate, sort, limit⟩, holds, ranking⟩, compiled, parts⟩ := map_eq_ok.mp parts
  simp only [Prod.mk.injEq, Option.isNone_iff_eq_none] at parts
  obtain ⟨rfl, rfl, rfl⟩ := parts
  obtain ⟨-, tested, ranked⟩ := ofSource_eq_ok.mp compiled
  cases tested
  cases ranked
  refine ⟨_, compiled, rfl, fun photo items => ?_⟩
  exact List.filter_eq_self.mpr fun _ _ => rfl

/-- The keyword that a direction is written as. -/
def Direction.keyword : Direction → Keyword
  | .ascending => .asc
  | .descending => .desc

/-- The keyword of a direction is spelled as the direction is written. -/
theorem Direction.spelling_keyword (direction : Direction) :
    direction.keyword.spelling = direction.word := by
  cases direction <;> rfl

/-- `all | sort path direction`. -/
def sortSource (path : List Text) (direction : Direction) : Text :=
  ofString "all | sort " ++ pathText path ++ ofString " " ++ ofString direction.word

/-- A source with the words of a printable query is that query, up to positions. -/
theorem Query.Printable.ofSource {decimals : Number → Text} {q : Query}
    (h : q.Printable decimals) (hn : q.cost ≤ maxNestingDepth) {source : Text} {body : List Token}
    (run : Run 0 source body source.length []) (same : body.map Token.word = q.words decimals) :
    ∃ q', Query.ofSource source = .ok q' ∧ q'.erase = q.erase := by
  obtain ⟨q', derives, erased⟩ := h.reads same (rfl : (Token.endOf source).kind = .eof)
  exact ⟨q', run.ofSource_eq_ok.mpr ⟨_, hn, derives⟩, erased⟩

/-- A run leads through a source that only sorts, and finds the words of its query. -/
theorem exists_run_sortSource {path : List Text} (hn : ∀ n ∈ path, n.IsName)
    (direction : Direction) :
    ∃ body, Run 0 (sortSource path direction) body (sortSource path direction).length [] ∧
      body.map Token.word =
        Query.words (fun _ => []) ⟨none, some ⟨path, direction, 0⟩, none⟩ := by
  have all : Writes (ofString "all ") [.keyword .all] := .keyword .all
  have bar : Writes (ofString "| ") [.bar] :=
    (Writes.mark (by decide : (.pipe, '|') ∈ marks)).append .space
  have sort : Writes (ofString "sort ") [.keyword .sort] := .keyword .sort
  have before := all.append (bar.append (sort.append (.path hn (by decide : isBlank (unit ' ')))))
  -- the direction is the last word, and the source ends behind it
  have last : Spells (.keyword direction.keyword) (ofString direction.word)
      (ofString direction.word) := by
    rw [← direction.spelling_keyword]
    exact Word.spells_keyword direction.keyword
  obtain ⟨body, same, run⟩ := before.exists_run_before last
  have source : sortSource path direction =
      ofString "all " ++ (ofString "| " ++ (ofString "sort " ++ (pathText path ++ [unit ' ']))) ++
        ofString direction.word := by
    have front : ofString "all | sort " =
        ofString "all " ++ (ofString "| " ++ ofString "sort ") := by
      decide
    simp only [sortSource, front, List.append_assoc]
    rfl
  rw [source]
  refine ⟨body, run, ?_⟩
  rw [same]
  cases direction <;> simp [Query.words, SortClause.words, Word.keyword, Direction.keyword,
    Direction.word, Keyword.spelling]

/-- **A source that only sorts** is a query of all photos, ranked by the property of its path. -/
theorem CompiledQuery.ofSource_sortSource {path : List Text} {property : Property}
    (hp : Property.ofPath path = .ok property) (hn : ∀ n ∈ path, n.IsName)
    (direction : Direction) :
    ∃ q, ofSource (sortSource path direction) = .ok q ∧
      ∀ {α : Type} (photo : α → Image) (items : List α),
        q.applyOn photo items =
          Ranking.sortOn ⟨direction, property.reading.value⟩ photo items := by
  have nonempty : path ≠ [] := by
    rintro rfl
    cases hp
  have printable :
      Query.Printable (fun _ => []) ⟨none, some ⟨path, direction, 0⟩, none⟩ := by
    refine ⟨nofun, ?_, nofun⟩
    rintro s ⟨⟩
    exact ⟨nonempty, hn⟩
  obtain ⟨body, run, same⟩ := exists_run_sortSource hn direction
  obtain ⟨⟨predicate, sort, limit⟩, read, erased⟩ := printable.ofSource (Nat.zero_le _) run same
  -- the query read is the one written, up to the position of its clause
  simp only [Query.erase, Query.mk.injEq, Option.map_none, Option.map_some,
    Option.map_eq_none_iff, Option.map_eq_some_iff] at erased
  obtain ⟨rfl, ⟨⟨path', direction', position⟩, rfl, clause⟩, rfl⟩ := erased
  obtain ⟨rfl, rfl⟩ : path' = path ∧ direction' = direction := by simpa using clause
  have ranked : reportAt position (Ranking.ofClause ⟨path', direction', position⟩) =
      .ok ⟨direction', property.reading.value⟩ := by
    rw [Ranking.ofClause, keyReader, hp]
    rfl
  have ranking : Query.ranking? ⟨none, some ⟨path', direction', position⟩, none⟩ =
      .ok (some ⟨direction', property.reading.value⟩) := congrArg (Except.map some) ranked
  refine ⟨⟨_, fun _ => true, _⟩, ofSource_eq_ok.mpr ⟨read, rfl, ranking⟩, fun photo items => ?_⟩
  exact congrArg (Ranking.sortOn _ photo) (List.filter_eq_self.mpr fun _ _ => rfl)

end PhotoQuery
