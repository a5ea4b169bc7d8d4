import PhotoQuery.Text.Case

/-!
# Lookup — names in tables

Keywords, fields and functions are found by name in a table, in capital or small letters.  No two
entries of a table have the same name, so the first entry that is found is the only one.
-/

namespace PhotoQuery

open Text

/-- The text is the name, in capital or small letters. -/
def Text.IsNamed (text : Text) (name : String) : Prop := text.lower = (ofString name).lower

instance (text : Text) (name : String) : Decidable (text.IsNamed name) :=
  inferInstanceAs (Decidable (_ = _))

/-- A name that is written in small letters is named by what is the same in small letters. -/
theorem isNamed_iff {text : Text} {name : String} (h : lower (ofString name) = ofString name) :
    text.IsNamed name ↔ text.lower = ofString name := by
  rw [IsNamed, h]

/-- In a table without equal keys, the entry found by a key is the one that has it. -/
theorem find?_key_eq_some {α : Type} {table : List α} {key : α → Text} {p : α → Bool} {t : Text}
    (distinct : ∀ a ∈ table, ∀ b ∈ table, key a = key b → a = b) (hp : ∀ b, p b ↔ t = key b)
    {a : α} (ha : a ∈ table) : table.find? p = some a ↔ t = key a := by
  constructor
  · intro h
    exact (hp a).mp (List.find?_some h)
  · intro h
    cases found : table.find? p with
    | none => exact absurd ((hp a).mpr h) (List.find?_eq_none.mp found a ha)
    | some b =>
      have same : key b = key a := ((hp b).mp (List.find?_some found)).symm.trans h
      rw [distinct b (List.mem_of_find?_eq_some found) a ha same]

end PhotoQuery
