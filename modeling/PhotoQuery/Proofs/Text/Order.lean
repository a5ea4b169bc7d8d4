import Mathlib.Data.List.Lex
import PhotoQuery.Text.Basic

/-!
# Text — the order of texts

Texts are ordered by their units, at the first place where they differ; a text that another starts
with comes before it.  Comparing two texts is deciding this order, and it is the lexicographic
order of the texts' units as numbers.
-/

namespace PhotoQuery.Text

/-- One text compares less than another exactly if it is before it. -/
theorem compare_eq_lt {a b : Text} : compare a b = .lt ↔ a < b := by
  induction a generalizing b with
  | nil =>
    cases b with
    | nil => simp
    | cons v t => simp [List.compare_nil_cons]
  | cons u s ih =>
    cases b with
    | nil => simp [List.compare_cons_nil]
    | cons v t =>
      rw [List.compare_cons_cons, Ordering.then_eq_lt, ih, List.cons_lt_cons_iff,
        Std.compare_eq_lt, Std.compare_eq_iff_eq]

theorem compare_eq_gt {a b : Text} : compare a b = .gt ↔ b < a := by
  rw [Std.OrientedOrd.eq_swap, Ordering.swap_eq_gt, compare_eq_lt]

/-- The order of texts is that of their units as numbers. -/
theorem lt_iff_map_toNat {a b : Text} : a < b ↔ a.map UInt16.toNat < b.map UInt16.toNat := by
  induction a generalizing b with
  | nil => cases b <;> simp
  | cons u s ih =>
    cases b with
    | nil => simp
    | cons v t =>
      simp only [List.map_cons, List.cons_lt_cons_iff, ih, UInt16.lt_iff_toNat_lt,
        UInt16.toNat_inj]

end PhotoQuery.Text
