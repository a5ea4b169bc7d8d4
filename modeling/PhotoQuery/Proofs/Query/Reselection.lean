import PhotoQuery.Proofs.Query.Composition
import PhotoQuery.Proofs.Query.Selection

/-!
# Query — selecting again

What a query selects passes its test, stands in its order and is within its limit, so selecting from
it gives it back (`CompiledQuery.applyOn_applyOn`).

Selecting from what is sorted is sorting what is selected (`filter_stableSort`).  Both are sources:
`piped` puts clauses behind a source, with a bar between them.  A sort clause behind a source
without clauses has the words that it has behind `all`, and so the same ranking
(`CompiledQuery.ofSource_piped`).
-/

namespace PhotoQuery

open Text Outcome Grammar

/-! ### Applying a query twice -/

namespace CompiledQuery

section

variable {α : Type} {photo : α → Image} {items : List α} {source : Text} {q : CompiledQuery}

/-- What a query selects, it holds of. -/
theorem applyOn_subset :
    q.applyOn photo items ⊆ items.filter fun x => q.holds (photo x) := fun _ hx =>
  (q.ordered_perm photo items).subset ((q.applyOn_sublist photo items).subset hx)

/-- What a query selects is in its order already. -/
theorem ordered_applyOn (h : ofSource source = .ok q) (hk : q.HasProperKeys (items.map photo)) :
    q.ordered photo (q.applyOn photo items) = q.applyOn photo items := by
  have all : (q.applyOn photo items).filter (fun x => q.holds (photo x)) = q.applyOn photo items :=
    List.filter_eq_self.mpr fun _ hx => (List.mem_filter.mp (applyOn_subset hx)).2
  cases hr : q.ranking with
  | none => rw [ordered_of_unranked hr, all]
  | some ranking =>
    have ranks := hk.ranks h hr
    have ranked := ranked_stableSort (ranking.weakOrder photo) ranks
    rw [← ordered_of_ranking hr] at ranked
    rw [ordered_of_ranking hr, all]
    exact stableSort_eq_self (ranks.subset applyOn_subset)
      (ranked.sublist (q.applyOn_sublist photo items))

/-- **Selecting twice** is selecting once. -/
theorem applyOn_applyOn (h : ofSource source = .ok q) (hk : q.HasProperKeys (items.map photo)) :
    q.applyOn photo (q.applyOn photo items) = q.applyOn photo items := by
  have length : (q.applyOn photo items).length ≤
      q.query.limit.getD (q.applyOn photo items).length := by
    cases hl : q.query.limit with
    | none => exact Nat.le_refl _
    | some limit =>
      rw [applyOn_eq_take, hl]
      exact List.length_take_le _ _
  rw [applyOn_eq_take, ordered_applyOn h hk]
  exact List.take_of_length_le length

end

end CompiledQuery

/-! ### Clauses behind a bar -/

/-- `source | clauses`. -/
def piped (source clauses : Text) : Text := source ++ (ofString " | " ++ clauses)

theorem length_piped (source clauses : Text) :
    (piped source clauses).length = clauses.length + (source.length + 3) := by
  have bar : (ofString " | ").length = 3 := rfl
  rw [piped, List.length_append, List.length_append, bar]
  omega

/-- The bar behind a source of this length, and tokens behind the bar. -/
def behindBar (length : Nat) (tokens : List Token) : List Token :=
  ⟨.pipe, [unit '|'], length + 1⟩ :: tokens.map (.shift (length + 3))

/-- What is put behind a bar keeps its words. -/
theorem map_word_behindBar (length : Nat) (tokens : List Token) :
    (behindBar length tokens).map Token.word = Word.bar :: tokens.map Token.word :=
  congrArg (List.cons Word.bar) (Token.map_word_shift (length + 3) tokens)

section

variable {a b : Text} {body tokens : List Token}

/-- Behind a source and a bar, a run goes on as it does in a source of its own. -/
theorem Run.pipe {stop : Nat} {left : Text} (ha : Run 0 a body a.length [])
    (hb : Run 0 b tokens stop left) :
    Run 0 (piped a b) (body ++ behindBar a.length tokens) (stop + (a.length + 3)) left := by
  have space : isBlank (unit ' ') := by decide
  have first := ha.append (barrier_blank space (unit '|' :: unit ' ' :: b))
  have bar : Longest .pipe [unit '|'] [unit '|'] (unit ' ' :: b) :=
    longest_iff.mpr ⟨.mark (by decide : (.pipe, '|') ∈ marks), trivial⟩
  have behind := hb.shift (a.length + 3)
  rw [Nat.zero_add] at behind
  exact first.trans (.blank space (.lexeme bar (.blank space behind)))

/-- A run through a source, and one through what is behind the bar, make up a run through both. -/
theorem Run.pipe_whole (ha : Run 0 a body a.length []) (hb : Run 0 b tokens b.length []) :
    Run 0 (piped a b) (body ++ behindBar a.length tokens) (piped a b).length [] :=
  length_piped a b ▸ ha.pipe hb

/-- What stands behind a bar is made of lexemes, if the whole source is. -/
theorem Query.exists_run_behind {q : Query} (ha : Run 0 a body a.length [])
    (h : Query.ofSource (piped a b) = .ok q) : ∃ tokens, Run 0 b tokens b.length [] := by
  rcases maximalMunch_or_stopsAt b with ⟨-, tokens, run, -⟩ | ⟨e, tokens, u, rest, run, hu, stuck⟩
  · exact ⟨tokens, run⟩
  · have stops : StopsAt (piped a b) ⟨e.position + (a.length + 3), e.cause⟩ :=
      ⟨_, u, rest, ha.pipe run, hu, stuck⟩
    rw [Query.ofSource, TokenStream.ofSource, tokenize_of_stopsAt stops] at h
    cases h

namespace Grammar

/-- Sort clauses in the same words are the same, up to their positions. -/
theorem DerivesSort.transfer {ss ss' : List Token} {clause : SortClause}
    (h : DerivesSort ss (some clause)) (same : ss.map Token.word = ss'.map Token.word) :
    ∃ clause', DerivesSort ss' (some clause') ∧ clause.Alike Anywhere clause' := by
  have places : Places Anywhere Anywhere 0 0 := ⟨id, trivial⟩
  have alike := Parser.sortClause_alike places (Token.allAlike_of_words same)
  have read := @sortClause_complete 0 _ _ _ _ h .missing
  rw [List.append_nil] at read
  rw [read] at alike
  generalize read' : Parser.sortClause 0 ss' = result at alike
  cases alike with
  | @ok _ taken' taken =>
    obtain ⟨clause', left⟩ := taken'
    obtain ⟨alike, nothing⟩ := taken
    obtain rfl : left = [] := List.forall₂_nil_left_iff.mp nothing
    obtain ⟨used, whole, derives⟩ := sortClause_sound read'
    rw [List.append_nil] at whole
    subst whole
    cases alike with
    | some alike => exact ⟨_, derives, alike⟩

/-- Behind `all` and in front of the end, there are the clauses. -/
theorem DerivesQuery.behind_all {all last : Token} {q : Query} {n : Nat}
    (kind : all.kind = .keyword .all) (h : DerivesQuery (all :: tokens ++ [last]) q n) :
    q.predicate = none ∧
      ∃ ss ls, tokens = ss ++ ls ∧ DerivesSort ss q.sort ∧ DerivesLimit ls q.limit := by
  generalize whole : all :: tokens ++ [last] = ts at h
  cases h with
  | @mk _ ss ls _ _ _ _ _ selection sorting limiting =>
    obtain ⟨whole, -⟩ := List.append_inj' whole rfl
    cases selection with
    | all =>
      obtain ⟨-, rfl⟩ := List.cons.inj whole
      exact ⟨rfl, ss, ls, rfl, sorting, limiting⟩
    | some derives =>
      -- no expression starts with `all`
      obtain ⟨t, ts, rfl, starts⟩ := derives.head
      obtain ⟨rfl, -⟩ := List.cons.inj whole
      rw [kind] at starts
      cases starts

end Grammar

end

/-- Behind `all`, a sort clause alone stands behind a bar. -/
theorem Query.sort_behind_all {clause : Text} {s : Query}
    (h : Query.ofSource (piped (ofString "all") clause) = .ok s) (unlimited : s.limit = none) :
    s.predicate = none ∧ ∃ tokens, Run 0 clause tokens clause.length [] ∧
      DerivesSort (behindBar 3 tokens) s.sort := by
  have all : Run 0 (ofString "all" ++ []) [⟨.keyword .all, ofString "all", 0⟩] 3 [] :=
    .lexeme ((Word.spells_keyword .all).longest barrier_nil) (.refl _ [])
  rw [List.append_nil] at all
  obtain ⟨tokens, run⟩ := Query.exists_run_behind all h
  obtain ⟨_, -, derives⟩ := (all.pipe_whole run).ofSource_eq_ok.mp h
  obtain ⟨selectsAll, ss, ls, split, sorting, limiting⟩ := derives.behind_all rfl
  rw [unlimited] at limiting
  cases limiting
  rw [List.append_nil] at split
  subst split
  exact ⟨selectsAll, tokens, run, sorting⟩

/-- Behind a source without clauses, a sort clause is read as it is behind `all`. -/
theorem Query.ofSource_piped {source clause : Text} {p s : Query} {c : SortClause}
    (hp : Query.ofSource source = .ok p) (unsorted : p.sort = none) (unlimited : p.limit = none)
    (hs : Query.ofSource (piped (ofString "all") clause) = .ok s) (sorted : s.sort = some c)
    (limitless : s.limit = none) :
    s.predicate = none ∧ ∃ c', Query.ofSource (piped source clause) =
      .ok ⟨p.predicate, some c', none⟩ ∧ c.Alike Anywhere c' := by
  obtain ⟨selectsAll, tokens, run, sorting⟩ := Query.sort_behind_all hs limitless
  refine ⟨selectsAll, ?_⟩
  obtain ⟨predicate, sort, limit⟩ := p
  obtain rfl : sort = none := unsorted
  obtain rfl : limit = none := unlimited
  obtain ⟨body, n, runBody, hn, selects⟩ := Query.exists_derives hp
  -- the clause stands behind a bar in both sources, in the same words
  have words : (behindBar 3 tokens).map Token.word =
      (behindBar source.length tokens).map Token.word := by
    rw [map_word_behindBar, map_word_behindBar]
  rw [sorted] at sorting
  obtain ⟨c', sorting', alike⟩ := sorting.transfer words
  have whole := DerivesQuery.mk selects.selection sorting' .missing
    (rfl : (Token.endOf (piped source clause)).kind = .eof)
  rw [List.append_nil] at whole
  exact ⟨c', (runBody.pipe_whole run).ofSource_eq_ok.mpr ⟨n, hn, whole⟩, alike⟩

namespace CompiledQuery

section

variable {selection clause : Text} {p s : CompiledQuery}

/-- Behind a source without clauses, a sort clause ranks as it does behind `all`. -/
theorem ofSource_piped (hp : ofSource selection = .ok p) (unsorted : p.query.sort = none)
    (unlimited : p.query.limit = none) (hs : ofSource (piped (ofString "all") clause) = .ok s)
    (sorted : s.query.sort.isSome) (limitless : s.query.limit = none) :
    (∀ photo, s.holds photo) ∧ ∃ q, ofSource (piped selection clause) = .ok q ∧
      q.holds = p.holds ∧ q.ranking = s.ranking ∧ q.query.limit = none := by
  obtain ⟨readP, testP, -⟩ := ofSource_eq_ok.mp hp
  obtain ⟨readS, testS, rankS⟩ := ofSource_eq_ok.mp hs
  obtain ⟨c, hc⟩ := Option.isSome_iff_exists.mp sorted
  obtain ⟨selectsAll, c', read, alike⟩ :=
    Query.ofSource_piped readP unsorted unlimited readS hc limitless
  have clauses : Query.Alike Anywhere ⟨none, some c, none⟩ ⟨none, some c', none⟩ :=
    ⟨.none, .some alike, rfl⟩
  have rank := Query.ranking?_alike clauses
  have same : Query.ranking? ⟨none, some c, none⟩ = .ok s.ranking := by
    rw [← rankS, Query.ranking?, Query.ranking?, hc]
  rw [same] at rank
  generalize ranked : Query.ranking? ⟨none, some c', none⟩ = result at rank
  cases rank with
  | @ok _ ranking same =>
    subst same
    refine ⟨fun photo => ?_, ⟨⟨p.query.predicate, some c', none⟩, p.holds, s.ranking⟩,
      ofSource_eq_ok.mpr ⟨read, testP, ranked⟩, rfl, rfl, rfl⟩
    rw [Query.test, selectsAll] at testS
    rw [← Except.ok.inj testS]

/-- **Selecting from what is sorted** is sorting what is selected. -/
theorem exists_ofSource_piped (hp : ofSource selection = .ok p) (unsorted : p.query.sort = none)
    (unlimited : p.query.limit = none) (hs : ofSource (piped (ofString "all") clause) = .ok s)
    (sorted : s.query.sort.isSome) (limitless : s.query.limit = none) :
    ∃ q, ofSource (piped selection clause) = .ok q ∧
      ∀ {α : Type} {photo : α → Image} {items : List α}, s.HasProperKeys (items.map photo) →
        q.applyOn photo items = p.applyOn photo (s.applyOn photo items) := by
  obtain ⟨all, q, hq, holds, ranking, uncut⟩ :=
    ofSource_piped hp unsorted unlimited hs sorted limitless
  refine ⟨q, hq, fun {α photo items} hk => ?_⟩
  obtain ⟨order, hr⟩ := exists_ranking hs sorted
  have selected : items.filter (fun x => s.holds (photo x)) = items :=
    List.filter_eq_self.mpr fun x _ => all (photo x)
  have ranks := selected ▸ hk.ranks hs hr
  rw [applyOn_of_unlimited uncut, ordered_of_ranking (ranking.trans hr), holds,
    applyOn_of_unlimited unlimited, ordered_of_unranked (unranked hp unsorted),
    applyOn_of_unlimited limitless, ordered_of_ranking hr, selected]
  exact (filter_stableSort (order.weakOrder photo) ranks _).symm

/-- **Selection is idempotent, and commutes with sorting.**  Selecting from what a query has
selected gives it back.  A sort clause behind a source without clauses gives what the source selects
from the photos that `all` sorts by this clause. -/
theorem applyOn_idem_and_comm :
    (∀ {source : Text} {q : CompiledQuery}, ofSource source = .ok q →
      ∀ {α : Type} {photo : α → Image} {items : List α}, q.HasProperKeys (items.map photo) →
        q.applyOn photo (q.applyOn photo items) = q.applyOn photo items) ∧
    ∀ {selection clause : Text} {p s : CompiledQuery}, ofSource selection = .ok p →
      p.query.sort = none → p.query.limit = none →
      ofSource (piped (ofString "all") clause) = .ok s → s.query.sort.isSome →
      s.query.limit = none →
      ∃ q, ofSource (piped selection clause) = .ok q ∧
        ∀ {α : Type} {photo : α → Image} {items : List α}, s.HasProperKeys (items.map photo) →
          q.applyOn photo items = p.applyOn photo (s.applyOn photo items) :=
  ⟨fun h _ _ _ hk => applyOn_applyOn h hk, exists_ofSource_piped⟩

/-- Two of the three photos that are asked for have the same camera, and the third has none. -/
theorem applyOn_idem_and_comm_model :
    let photo (name : String) (exif : Option Exif) : Image :=
      { filename := .ofString name, width := .zero, height := .zero, exif }
    let photos : List Image :=
      [photo "a" none, photo "b" (some { model := some (.ofString "X") }),
        photo "c" (some { model := some (.ofString "X") }), photo "d" none]
    (∃ q, ofSource (ofString "filename != 'd' | sort exif.model desc | limit 2") = .ok q ∧
      q.HasProperKeys (photos.map id) ∧
      q.applyOn id (q.applyOn id photos) = q.applyOn id photos) ∧
    ∃ p s q, ofSource (ofString "filename != 'd'") = .ok p ∧ p.query.sort = none ∧
      p.query.limit = none ∧
      ofSource (piped (ofString "all") (ofString "sort exif.model desc")) = .ok s ∧
      s.query.sort.isSome ∧ s.query.limit = none ∧
      ofSource (piped (ofString "filename != 'd'") (ofString "sort exif.model desc")) = .ok q ∧
      s.HasProperKeys (photos.map id) ∧
      q.applyOn id photos = p.applyOn id (s.applyOn id photos) := by
  intro photo photos
  have limited : (ofSource (ofString "filename != 'd' | sort exif.model desc | limit 2")).map
      (·.query.sort) =
      .ok (some ⟨[ofString "exif", ofString "model"], .descending, 18⟩) := by decide +kernel
  have selecting : (ofSource (ofString "filename != 'd'")).map
      (fun p => (p.query.sort, p.query.limit)) = .ok (none, none) := by decide +kernel
  have sorting : (ofSource (piped (ofString "all") (ofString "sort exif.model desc"))).map
      (fun s => (s.query.sort, s.query.limit)) =
      .ok (some ⟨[ofString "exif", ofString "model"], .descending, 6⟩, none) := by decide +kernel
  have reader : keyReader [ofString "exif", ofString "model"] =
      .ok fun photo => (photo.exif.bind (·.model)).map .string := rfl
  obtain ⟨q, hq, hsort⟩ := map_eq_ok.mp limited
  obtain ⟨p, hp, parts⟩ := map_eq_ok.mp selecting
  obtain ⟨unsorted, unlimited⟩ := Prod.mk.inj parts
  obtain ⟨s, hs, parts⟩ := map_eq_ok.mp sorting
  obtain ⟨sorted, limitless⟩ := Prod.mk.inj parts
  have isSome : s.query.sort.isSome := Option.isSome_of_eq_some sorted
  have proper : q.HasProperKeys (photos.map id) := .of_strings hsort reader
  have proper' : s.HasProperKeys (photos.map id) := .of_strings sorted reader
  obtain ⟨q', hq', comm⟩ := applyOn_idem_and_comm.2 hp unsorted unlimited hs isSome limitless
  exact ⟨⟨q, hq, proper, applyOn_idem_and_comm.1 hq proper⟩,
    p, s, q', hp, unsorted, unlimited, hs, isSome, limitless, hq', proper', comm proper'⟩

end

end CompiledQuery

end PhotoQuery
