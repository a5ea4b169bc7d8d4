import PhotoQuery.Proofs.Expr.Paths
import PhotoQuery.Proofs.Query.Composition
import PhotoQuery.Proofs.Query.Selection

/-!
# Query — what a query sees

A query sees of a photo what stands under its paths, those in its predicate and the one in its sort
clause, and nothing else.  Where two lists of photos agree on these paths, place by place, the query
cannot tell them apart (`CompiledQuery.confuses`): it holds of the photos at the same places, orders
them alike, and picks the same places in the same order.

So it can never tell a missing block of EXIF data from one that holds nothing.
-/

namespace PhotoQuery

open Outcome

/-- The paths in the predicate of the query, and the path to sort by. -/
def Query.paths (q : Query) : List (List Text) :=
  q.predicate.elim [] Expr.paths ++ q.sort.toList.map SortClause.path

namespace CompiledQuery

variable {source : Text} {q : CompiledQuery} {a a' b b' : Image}

/-! ### Photos -/

/-- A query holds of both or of neither of two photos that agree on its paths. -/
theorem holds_agree (h : ofSource source = .ok q) (agree : Image.AgreeOn q.query.paths a a') :
    q.holds a = q.holds a' := by
  obtain ⟨-, tested, -⟩ := ofSource_eq_ok.mp h
  unfold Query.test at tested
  split at tested
  · rw [← Except.ok.inj tested]
  · rename_i e he
    rw [Query.paths, he] at agree
    exact Expr.predicate_agree tested agree.left

/-- A query orders two photos as it does two that agree with them on its paths. -/
theorem order?_agree (h : ofSource source = .ok q)
    (left : Image.AgreeOn q.query.paths a a') (right : Image.AgreeOn q.query.paths b b') :
    q.order? a b = q.order? a' b' := by
  have ranked := ranking_of_ofSource h
  split at ranked
  · rw [order?, order?, ranked]
  · rename_i clause hs
    obtain ⟨key, found, ranking⟩ := ranked
    have same {photo photo' : Image} (agree : Image.AgreeOn q.query.paths photo photo') :
        key photo = key photo' := by
      rw [Query.paths, hs] at agree
      have value := agree.right clause.path List.mem_cons_self
      rwa [Image.valueUnder_eq found, Image.valueUnder_eq found] at value
    simp only [order?, ranking, Ranking.order?, same left, same right]

/-! ### Lists of photos -/

/-- The places in the list that applying the query picks, in its order. -/
def picks (q : CompiledQuery) (photos : List Image) : List (Fin photos.length) :=
  q.applyOn photos.get (List.finRange photos.length)

/-- Applying a query gives the photos at the places that it picks. -/
theorem apply_eq_map_picks (photos : List Image) :
    q.apply photos = (q.picks photos).map photos.get :=
  q.apply_eq_map_applyOn photos

/-- The query cannot tell the lists apart, place by place. -/
structure Confuses (q : CompiledQuery) (photos photos' : List Image) : Prop where
  length : photos.length = photos'.length
  holds : ∀ i, q.holds (photos.get i) = q.holds (photos'.get (i.cast length))
  order? : ∀ i j, q.order? (photos.get i) (photos.get j) =
    q.order? (photos'.get (i.cast length)) (photos'.get (j.cast length))
  picks : (q.picks photos).map (Fin.cast length) = q.picks photos'
  apply : q.apply photos = (q.picks photos).map photos.get ∧
    q.apply photos' = (q.picks photos').map photos'.get

/-- If a query can tell neither single photos apart nor pairs of them, it selects the same items. -/
theorem applyOn_congr {α : Type} {photo photo' : α → Image} {items : List α}
    (holds : ∀ x ∈ items, q.holds (photo x) = q.holds (photo' x))
    (order : ∀ x ∈ items, ∀ y ∈ items,
      q.order? (photo x) (photo y) = q.order? (photo' x) (photo' y)) :
    q.applyOn photo items = q.applyOn photo' items := by
  have selected : (items.filter fun x => q.holds (photo x)) =
      items.filter fun x => q.holds (photo' x) := List.filter_congr holds
  have ordered : q.ordered photo items = q.ordered photo' items := by
    cases hr : q.ranking with
    | none => rw [ordered_of_unranked hr, ordered_of_unranked hr, selected]
    | some ranking =>
      rw [ordered_of_ranking hr, ordered_of_ranking hr, selected]
      refine stableSort_congr fun x hx y hy => ?_
      have same := order x (List.mem_of_mem_filter hx) y (List.mem_of_mem_filter hy)
      simpa only [CompiledQuery.order?, hr] using same
  rw [applyOn_eq_take, applyOn_eq_take, ordered]

/-- Photos that the query cannot tell apart make up lists that it cannot tell apart. -/
theorem confuses_of_agree (h : ofSource source = .ok q) {photos photos' : List Image}
    (agree : List.Forall₂ (Image.AgreeOn q.query.paths) photos photos') :
    q.Confuses photos photos' := by
  obtain ⟨length, each⟩ := List.forall₂_iff_get.mp agree
  have place (i : Fin photos.length) : Image.AgreeOn q.query.paths (photos.get i)
      (photos'.get (i.cast length)) := each i i.isLt (i.cast length).isLt
  have holds (i : Fin photos.length) :
      q.holds (photos.get i) = q.holds (photos'.get (i.cast length)) := holds_agree h (place i)
  have order (i j : Fin photos.length) : q.order? (photos.get i) (photos.get j) =
      q.order? (photos'.get (i.cast length)) (photos'.get (j.cast length)) :=
    order?_agree h (place i) (place j)
  refine ⟨length, holds, order, ?_, apply_eq_map_picks photos, apply_eq_map_picks photos'⟩
  have range {m n : Nat} (h : m = n) : (List.finRange m).map (Fin.cast h) = List.finRange n := by
    subst h
    exact List.map_id _
  rw [picks, applyOn_congr (fun i _ => holds i) fun i _ j _ => order i j,
    map_applyOn photos'.get (Fin.cast length), range, picks]

end CompiledQuery

/-! ### Photos with nothing in their blocks -/

/-- The photos are one photo, or one photo with two blocks of EXIF data that hold nothing. -/
inductive Image.SameButBlocks : Image → Image → Prop where
  | refl (photo : Image) : SameButBlocks photo photo
  | blocks (photo : Image) {block block' : Option Exif} (h : Exif.HoldsNothing block)
      (h' : Exif.HoldsNothing block') :
      SameButBlocks { photo with exif := block } { photo with exif := block' }

/-- Photos that are the same but for blocks that hold nothing agree on all paths. -/
theorem Image.SameButBlocks.agreeOn {a b : Image} (h : a.SameButBlocks b)
    (paths : List (List Text)) : Image.AgreeOn paths a b := by
  intro path _
  cases h with
  | refl => rfl
  | blocks photo h h' => exact h.valueUnder_eq h' photo path

/-! ### The statement -/

/-- **A query sees only what it names.**  It cannot tell lists of photos apart that agree, place by
place, on the paths that it names; in particular it cannot tell a photo without a block of EXIF data
from one with a block that holds nothing. -/
theorem CompiledQuery.confuses {source : Text} {q : CompiledQuery} (h : ofSource source = .ok q) :
    (∀ {photos photos'}, List.Forall₂ (Image.AgreeOn q.query.paths) photos photos' →
      q.Confuses photos photos') ∧
    ∀ {photos photos'}, List.Forall₂ Image.SameButBlocks photos photos' →
      q.Confuses photos photos' :=
  ⟨confuses_of_agree h, fun same => confuses_of_agree h (same.imp fun _ _ h => h.agreeOn _)⟩

/-- `exif.iso > 100 | sort filename desc` sees neither the size of a photo nor its make, and does
not tell two photos without EXIF data apart. -/
theorem CompiledQuery.confuses_iso_filename :
    let source := Text.ofString "exif.iso > 100 | sort filename desc"
    let name := Text.ofString "a.jpg"
    let small : Image := ⟨name, .ofNat 1, .ofNat 1, none, some { iso := some (.ofNat 200) }⟩
    let large : Image := ⟨name, .ofNat 9, .ofNat 9, none,
      some { iso := some (.ofNat 200), make := some name }⟩
    let plain : Image := ⟨name, .ofNat 1, .ofNat 1, none, none⟩
    let empty : Image := { plain with exif := some {} }
    let untagged : Image := { plain with exif := some { raw := some [] } }
    ∃ q, ofSource source = .ok q ∧ q.Confuses [small, small] [large, small] ∧
      q.Confuses [small, plain, empty] [small, empty, untagged] := by
  intro source name small large plain empty untagged
  have paths : (ofSource source).map (·.query.paths) =
      .ok [[.ofString "exif", .ofString "iso"], [.ofString "filename"]] := by decide +kernel
  obtain ⟨q, h, names⟩ := map_eq_ok.mp paths
  refine ⟨q, h, (confuses h).1 ?_, (confuses h).2 ?_⟩
  · rw [names]
    exact .cons (by decide +kernel) (.cons (fun _ _ => rfl) .nil)
  · exact .cons (.refl small) (.cons (.blocks plain .missing .empty)
      (.cons (.blocks plain .empty .untagged) .nil))

end PhotoQuery
