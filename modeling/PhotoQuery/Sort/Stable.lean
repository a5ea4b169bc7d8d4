import PhotoQuery.Sort.Key

/-!
# Sort — stable sorting

`stableSort` orders a list by an order that may be partial.  Items that tie, and items without an
order between them, keep the order in which they stand.

Sorting, like selecting, works on any items that a photo can be seen in, so that a caller may sort
photos together with what belongs to them.
-/

namespace PhotoQuery

/-- The items in order; ties and pairs without an order stay as they stand. -/
def stableSort {α : Type} (order? : α → α → Option Ordering) (items : List α) : List α :=
  items.mergeSort fun a b => order? a b != some .gt

/-- The items ranked by the photos in them. -/
def Ranking.sortOn {α : Type} (ranking : Ranking) (photo : α → Image) (items : List α) : List α :=
  stableSort (fun a b => ranking.order? (photo a) (photo b)) items

end PhotoQuery
