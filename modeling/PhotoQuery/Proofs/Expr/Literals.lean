import PhotoQuery.Proofs.Expr.Checking
import PhotoQuery.Proofs.Expr.Paths

/-!
# Expr — numbers and literals

Equality of numbers is what is left when neither is less than the other.  Between two numbers that
is equality, and no number equals two literals of different values.  A value that is not a number is
less than none and greater than none, so it counts as equal to every literal
(`Expr.equal_two_years`).

`Expr.equal_both_iff` says that there is no other way to equal two literals, and `Expr.ReadsNan`
says where such a value comes from: the photo holds it, or holds an invalid date of which a part is
asked for.
-/

namespace PhotoQuery

open Text Outcome

/-! ### Numbers -/

/-- One of the two numbers is less than the other. -/
def Number.Differs (x y : Number) : Prop :=
  Number.compare? x y = some .lt ∨ Number.compare? x y = some .gt

instance (x y : Number) : Decidable (x.Differs y) := inferInstanceAs (Decidable (_ ∨ _))

namespace Reading

/-- A number that counts as equal to another one has its height. -/
theorem height_eq_of_orderNumbers {s t : Bool} {r q : Rank}
    (h : orderNumbers (.signed s r) (.signed t q) = .eq) :
    Number.height s r = Number.height t q := Std.compare_eq_iff_eq.mp h

/-- What counts as equal to two numbers that differ is no number. -/
theorem orderNumbers_eq_both_iff {x y v : Number} (distinct : x.Differs y) :
    orderNumbers v x = .eq ∧ orderNumbers v y = .eq ↔ v = .nan := by
  constructor
  · rintro ⟨hx, hy⟩
    cases v with
    | nan => rfl
    | signed s r =>
      cases x with
      | nan => cases distinct <;> contradiction
      | signed t q =>
        cases y with
        | nan => cases distinct <;> contradiction
        | signed u p =>
          have same : Number.height t q = Number.height u p :=
            (height_eq_of_orderNumbers hx).symm.trans (height_eq_of_orderNumbers hy)
          rw [Number.Differs, Number.compare?, same, Std.compare_self] at distinct
          cases distinct <;> contradiction
  · rintro rfl
    exact ⟨rfl, rfl⟩

/-- A reading of numbers has them as its values. -/
theorem exists_number? {r : Reading} (h : r.kind.IsNumber) :
    ∃ read, r.number? = some read ∧ ∀ photo, r.value photo = (read photo).map .number := by
  obtain ⟨read, rfl | rfl⟩ := exists_number h
  · exact ⟨read, rfl, fun _ => rfl⟩
  · exact ⟨read, rfl, fun _ => rfl⟩

theorem compared_numbers (op : Comparison) {l r : Reading} {f g : Image → Option Number}
    (hl : l.number? = some f) (hr : r.number? = some g) :
    compared op l r = .ok (present op orderNumbers f g) := by
  cases l with
  | integer _ | decimal _ =>
    cases hl
    cases r with
    | integer _ | decimal _ =>
      cases hr
      rfl
    | _ => cases hr
  | _ => cases hl

end Reading

/-! ### Comparisons with a literal -/

/-- The number that a literal is written for, if it is one of a number. -/
def Constant.number? : Constant → Option Number
  | .integer x => some x
  | .decimal x => some x
  | _ => none

/-- A literal that is written for a number reads it of every photo. -/
theorem Constant.number?_reading {a : Constant} {x : Number} (ha : a.number? = some x) :
    a.reading.number? = some fun _ => some x := by
  cases a with
  | integer _ | decimal _ =>
    cases ha
    rfl
  | _ => cases ha

/-- Comparing a numeric tree with a literal gives a predicate, which holds of the photos whose value
counts as equal. -/
theorem Expr.predicate_equal {e : Expr} {c : Compiled} (h : e.compile = .ok c)
    {read : Image → Option Number} (hr : c.reading.number? = some read) {a : Constant} {x : Number}
    (ha : a.number? = some x) (position place : Nat) :
    ∃ test, predicate (.comparison .equal position e (.constant a place)) = .ok test ∧
      ∀ photo, test photo = true ↔ ∃ v, read photo = some v ∧ Reading.orderNumbers v x = .eq := by
  have compiled : compile (.comparison .equal position e (.constant a place)) =
      .ok ⟨.present .equal Reading.orderNumbers read fun _ => some x, false, position⟩ := by
    rw [compile, h, ok_bind, compile, ok_bind,
      Reading.compared_numbers .equal hr (Constant.number?_reading ha)]
    rfl
  rw [predicate, compiled, ok_bind]
  refine ⟨_, rfl, fun photo => ?_⟩
  cases found : read photo with
  | none => simp [found]
  | some v => simp [found, Comparison.holds, Ordering.isEq_iff_eq_eq]

/-! ### Where no number is read -/

namespace Expr

/-- What the tree has for the photo is not a number: it is a literal that is none, or the photo
holds a value that is none, or a date that is none and whose part is asked for. -/
inductive ReadsNan (photo : Image) : Expr → Prop where
  | literal {value : Constant} (place : Nat) (h : value.number? = some .nan) :
      ReadsNan photo (.constant value place)
  | property {path : List Text} (place : Nat) (h : photo.valueUnder path = some (.number .nan)) :
      ReadsNan photo (.property path place)
  | datePart {name : Text} {path : List Text} (part : DatePart) (position place : Nat)
      (hn : name.IsNamed (Function.name (.datePart part)))
      (h : photo.valueUnder path = some (.date .invalid)) :
      ReadsNan photo (.call name position [.property path place])

/-- Of the compiled trees only paths give dates. -/
theorem CompilesTo.exists_path {e : Expr} {c : Compiled} (h : CompilesTo e c)
    (hk : c.kind = .date) : ∃ path place, e = .property path place := by
  cases h with
  | constant value position => cases value <;> cases hk
  | property position h => exact ⟨_, position, rfl⟩
  | comparison position hl hr hc =>
    obtain ⟨holds, rfl⟩ := hc.exists_test
    cases hk
  | _ => cases hk

/-- A path that compiles reads what the photo holds under it. -/
theorem CompilesTo.value_path {path : List Text} {place : Nat} {c : Compiled}
    (h : CompilesTo (.property path place) c) (photo : Image) :
    c.value photo = photo.valueUnder path := by
  cases h with
  | property position names => exact (Image.valueUnder_eq names.keyReader photo).symm

end Expr

/-- A literal has a value that is not a number if it is written for one that is none. -/
theorem Constant.value_eq_nan_iff {value : Constant} {photo : Image} :
    value.reading.value photo = some (.number .nan) ↔ value.number? = some .nan := by
  cases value <;> simp [reading, Reading.value, number?]

/-- Only of an invalid date no part is a number. -/
theorem DatePart.read_eq_nan_iff {part : DatePart} {date : Timestamp} :
    part.read date = .nan ↔ date = .invalid := by
  cases date with
  | invalid => exact iff_of_true rfl rfl
  | instant ms => exact iff_of_false nofun nofun

theorem DatePart.value_eq_nan_iff {part : DatePart} {read : Image → Option Timestamp}
    {photo : Image} :
    Reading.value (.integer fun photo => (read photo).map part.read) photo = some (.number .nan) ↔
      Reading.value (.date read) photo = some (.date .invalid) := by
  simp [Reading.value, read_eq_nan_iff]

namespace Expr

/-- A compiled tree whose value is not a number reads none. -/
theorem CompilesTo.readsNan {e : Expr} {c : Compiled} {photo : Image} (h : CompilesTo e c)
    (hv : c.value photo = some (.number .nan)) : e.ReadsNan photo := by
  cases h with
  | constant value position => exact .literal position (Constant.value_eq_nan_iff.mp hv)
  | property position names =>
    exact .property position ((CompilesTo.property position names).value_path photo ▸ hv)
  | datePart part position hn h =>
    obtain ⟨path, place, rfl⟩ := h.exists_path rfl
    exact .datePart part position place hn (h.value_path photo ▸ DatePart.value_eq_nan_iff.mp hv)
  | comparison position hl hr hc =>
    obtain ⟨holds, rfl⟩ := hc.exists_test
    cases hv
  | caseForm form position hn h => simp [Compiled.value, Reading.value] at hv
  | _ => cases hv

/-- A compiled tree that reads no number has a value that is none. -/
theorem ReadsNan.value_eq {e : Expr} {c : Compiled} {photo : Image} (h : e.ReadsNan photo)
    (hc : CompilesTo e c) : c.value photo = some (.number .nan) := by
  cases h with
  | literal place h =>
    cases hc
    exact Constant.value_eq_nan_iff.mpr h
  | property place h => rw [hc.value_path, h]
  | datePart part position place hn h =>
    cases hc with
    | datePart part' _ _ hd =>
      exact DatePart.value_eq_nan_iff.mpr ((hd.value_path photo).trans h)
    | caseForm form _ other _ =>
      cases (Function.ofName?_eq_some.mpr hn).symm.trans (Function.ofName?_eq_some.mpr other)

/-- **No number equals two literals.**  Of a numeric tree that compiles, equality with any two
numeric literals is a predicate.  If the literals have different values, the photos of which both
predicates hold are exactly those for which the tree reads what is not a number. -/
theorem equal_both_iff {e : Expr} {c : Compiled} (h : e.compile = .ok c) (hk : c.kind.IsNumber)
    {a b : Constant} {x y : Number} (ha : a.number? = some x) (hb : b.number? = some y)
    (distinct : x.Differs y) (position position' place place' : Nat) :
    ∃ test test',
      predicate (.comparison .equal position e (.constant a place)) = .ok test ∧
      predicate (.comparison .equal position' e (.constant b place')) = .ok test' ∧
      ∀ photo, test photo = true ∧ test' photo = true ↔ e.ReadsNan photo := by
  obtain ⟨read, hr, hv⟩ := Reading.exists_number? hk
  obtain ⟨test, ht, holds⟩ := predicate_equal h hr ha position place
  obtain ⟨test', ht', holds'⟩ := predicate_equal h hr hb position' place'
  refine ⟨test, test', ht, ht', fun photo => ?_⟩
  have compiled := compilesTo_of_compile h
  -- where the tree reads no number is where its value is none
  have reads : e.ReadsNan photo ↔ read photo = some .nan := by
    refine Iff.trans ⟨fun nan => nan.value_eq compiled, compiled.readsNan⟩ ?_
    rw [Compiled.value, hv]
    simp
  rw [holds, holds', reads]
  cases read photo with
  | none => simp
  | some v => simp [← Reading.orderNumbers_eq_both_iff distinct]

/-- The year in which a photo was taken, against an integer and a decimal. -/
theorem equal_both_iff_year :
    let year : Expr := .call (ofString "Year") 0 [.property [ofString "dateTaken"] 5]
    let a : Constant := .integer (.ofNat 2024)
    let b : Constant := .decimal (.ofDecimal false 20235 5 (-1))
    ∃ c, year.compile = .ok c ∧ c.kind.IsNumber ∧ a.number? = some (.ofNat 2024) ∧
      b.number? = some (.ofDecimal false 20235 5 (-1)) ∧
      Number.Differs (.ofNat 2024) (.ofDecimal false 20235 5 (-1)) ∧
      ∃ test test',
        predicate (.comparison .equal 16 year (.constant a 19)) = .ok test ∧
        predicate (.comparison .equal 16 year (.constant b 19)) = .ok test' ∧
        ∀ photo, test photo = true ∧ test' photo = true ↔ year.ReadsNan photo := by
  intro year a b
  have h : year.compile = .ok ⟨.integer fun photo => photo.dateTaken.map (DatePart.read .year), true,
      0⟩ := rfl
  have distinct : Number.Differs (.ofNat 2024) (.ofDecimal false 20235 5 (-1)) := by decide +kernel
  exact ⟨_, h, .integer, rfl, rfl, distinct,
    equal_both_iff h .integer (a := a) (b := b) rfl rfl distinct 16 16 19 19⟩

/-- A photo whose date is invalid was taken in 2023, and in 2024. -/
theorem equal_two_years :
    let year : Expr := .call (ofString "year") 0 [.property [ofString "dateTaken"] 5]
    let photo : Image := ⟨ofString "a.jpg", .zero, .zero, some .invalid, none⟩
    Number.Differs (.ofNat 2023) (.ofNat 2024) ∧
      ∃ test test',
        predicate (.comparison .equal 16 year (.constant (.integer (.ofNat 2023)) 19)) = .ok test ∧
        predicate (.comparison .equal 16 year (.constant (.integer (.ofNat 2024)) 19)) =
          .ok test' ∧
        test photo = true ∧ test' photo = true := by
  intro year photo
  have distinct : Number.Differs (.ofNat 2023) (.ofNat 2024) := by decide +kernel
  exact ⟨distinct, _, _, rfl, rfl, rfl, rfl⟩

end Expr

end PhotoQuery
