import Mathlib.Data.Option.NAry
import Mathlib.Logic.ExistsUnique
import PhotoQuery.Proofs.Expr.Literals
import PhotoQuery.Proofs.Number.Order

/-!
# Expr — laws of comparisons

Numbers, texts and dates can be ordered (`Kind.Orderable`), and the six operators read one order of
the two sides: of a photo that has both values, exactly one of `<`, `==` and `>` holds
(`Comparison.Total`), and a photo that lacks one passes none of the six.  Exchanging the sides
reverses the order, so `l < r` is `r > l` (`Expr.comparison_laws`).

This stays so where values are not numbers or dates: they count as equal to whatever they are
compared with, and every operator sees them so.  The order itself is not transitive there.
-/

namespace PhotoQuery

open Text Outcome

/-! ### Operators -/

/-- Values of these kinds have an order: both are numbers, both are texts or both are dates. -/
inductive Kind.Orderable : Kind → Kind → Prop where
  | numbers {k k' : Kind} (h : k.IsNumber) (h' : k'.IsNumber) : Orderable k k'
  | strings : Orderable .string .string
  | dates : Orderable .date .date

namespace Comparison

/-- The operator that says the same with the sides exchanged. -/
def converse : Comparison → Comparison
  | .equal => .equal
  | .notEqual => .notEqual
  | .less => .greater
  | .lessOrEqual => .greaterOrEqual
  | .greater => .less
  | .greaterOrEqual => .lessOrEqual

/-- An operator says of an order what its converse says of the reverse. -/
theorem holds_converse (op : Comparison) (o : Ordering) :
    op.converse.holds o.swap = op.holds o := by
  cases op <;> cases o <;> rfl

/-- The outcomes of the six comparisons are those of two ordered sides: exactly one of `<`, `==` and
`>` holds, and each of the other three is the negation of one of them. -/
structure Total (outcome : Comparison → Bool) : Prop where
  exactlyOne : ∃! op, op ∈ [less, equal, greater] ∧ outcome op = true
  notEqual : outcome .notEqual = !outcome .equal
  lessOrEqual : outcome .lessOrEqual = !outcome .greater
  greaterOrEqual : outcome .greaterOrEqual = !outcome .less

/-- Of any order of two sides, the six operators are total. -/
theorem total_holds (o : Ordering) : Total fun op => op.holds o where
  exactlyOne := by
    cases o with
    | lt => exact ⟨.less, by decide, fun op => by cases op <;> simp [holds]⟩
    | eq => exact ⟨.equal, by decide, fun op => by cases op <;> simp [holds]⟩
    | gt => exact ⟨.greater, by decide, fun op => by cases op <;> simp [holds]⟩
  notEqual := by cases o <;> rfl
  lessOrEqual := by cases o <;> rfl
  greaterOrEqual := by cases o <;> rfl

end Comparison

/-! ### Orders -/

namespace Reading

/-- The order of numbers is reversed with the sides exchanged, and a value that is none is equal to
itself. -/
instance : Std.OrientedCmp orderNumbers where
  eq_swap {a b} := by
    rw [orderNumbers, orderNumbers, Number.compare?_swap b a]
    cases Number.compare? b a <;> rfl

instance : Std.OrientedCmp orderDates where
  eq_swap {a b} := by
    rw [orderDates, orderDates, Timestamp.compare?_swap b a]
    cases Timestamp.compare? b a <;> rfl

/-! ### Readings -/

/-- Comparing two readings is asking the operator about their order, where they have one. -/
theorem present_eq_test {α : Type} (op : Comparison) (order : α → α → Ordering)
    (l r : Image → Option α) :
    present op order l r =
      test fun photo => (Option.map₂ order (l photo) (r photo)).any op.holds := by
  refine congrArg test (funext fun photo => ?_)
  cases l photo with
  | none => rfl
  | some a => cases r photo <;> rfl

/-- The six comparisons of the readings ask about one order of theirs, and with the sides exchanged
about its reverse.  A photo has one unless it lacks a value. -/
def Ordered (l r : Reading) : Prop :=
  ∃ order? : Image → Option Ordering,
    (∀ photo, order? photo = none ↔ l.value photo = none ∨ r.value photo = none) ∧
      (∀ op, compared op l r = .ok (test fun photo => (order? photo).any op.holds)) ∧
      ∀ op, compared op r l =
        .ok (test fun photo => ((order? photo).map Ordering.swap).any op.holds)

/-- Readings whose values are compared by one order are ordered. -/
theorem Ordered.of_present {α : Type} {order : α → α → Ordering} [Std.OrientedCmp order]
    {l r : Reading} {f g : Image → Option α} (hl : ∀ photo, l.value photo = none ↔ f photo = none)
    (hr : ∀ photo, r.value photo = none ↔ g photo = none)
    (forth : ∀ op, compared op l r = .ok (present op order f g))
    (back : ∀ op, compared op r l = .ok (present op order g f)) : Ordered l r := by
  have reversed (photo : Image) : Option.map₂ order (g photo) (f photo) =
      (Option.map₂ order (f photo) (g photo)).map Ordering.swap := by
    rw [Option.map₂_swap, Option.map_map₂]
    exact congrArg (Option.map₂ · _ _) (funext fun a => funext fun b => Std.OrientedCmp.eq_swap)
  refine ⟨fun photo => Option.map₂ order (f photo) (g photo), fun photo => ?_, fun op => ?_,
    fun op => ?_⟩
  · rw [Option.map₂_eq_none_iff, hl, hr]
  · rw [forth, present_eq_test]
  · simp only [back, present_eq_test, reversed]

/-- Readings of kinds that can be ordered are. -/
theorem ordered_of_orderable {l r : Reading} (h : l.kind.Orderable r.kind) : Ordered l r := by
  generalize hk : l.kind = k at h
  generalize hk' : r.kind = k' at h
  cases h with
  | numbers hl hr =>
    obtain ⟨f, hf, value⟩ := exists_number? (hk ▸ hl)
    obtain ⟨g, hg, value'⟩ := exists_number? (hk' ▸ hr)
    exact .of_present (fun photo => by rw [value, Option.map_eq_none_iff])
      (fun photo => by rw [value', Option.map_eq_none_iff]) (fun op => compared_numbers op hf hg)
      fun op => compared_numbers op hg hf
  | strings =>
    obtain ⟨f, rfl⟩ := exists_string hk
    obtain ⟨g, rfl⟩ := exists_string hk'
    exact .of_present (fun _ => Option.map_eq_none_iff) (fun _ => Option.map_eq_none_iff)
      (fun _ => rfl) fun _ => rfl
  | dates =>
    obtain ⟨f, rfl⟩ := exists_date hk
    obtain ⟨g, rfl⟩ := exists_date hk'
    exact .of_present (fun _ => Option.map_eq_none_iff) (fun _ => Option.map_eq_none_iff)
      (fun _ => rfl) fun _ => rfl

/-- What is compared for equality with itself passes where it is present. -/
theorem present_self {α : Type} {order : α → α → Ordering} [Std.ReflCmp order]
    (f : Image → Option α) : present .equal order f f = test fun photo => (f photo).isSome := by
  refine congrArg test (funext fun photo => ?_)
  cases f photo with
  | none => rfl
  | some a => simp [Std.ReflCmp.compare_self, Comparison.holds]

/-- A reading equals itself where it is present. -/
theorem compared_self {r : Reading} (h : r.kind ≠ .null) :
    compared .equal r r = .ok (test fun photo => (r.value photo).isSome) := by
  cases r with
  | null => exact absurd rfl h
  | boolean f => simp [compared, Comparison.isEquality, value, present_self]
  | string f | date f => simp [compared, value, present_self]
  | integer f | decimal f => simp [compared, number?, value, present_self]

theorem compared_null (op : Comparison) (he : op.isEquality) (r : Reading) :
    compared op r .null = .ok (presence op r) := by
  cases r <;> exact if_pos he

end Reading

/-! ### Trees -/

namespace Expr

theorem predicate_comparison {op : Comparison} {l r : Expr} {c c' : Compiled}
    {holds : Image → Bool} (hl : l.compile = .ok c) (hr : r.compile = .ok c')
    (h : Reading.compared op c.reading c'.reading = .ok (.test holds)) (position : Nat) :
    predicate (.comparison op position l r) = .ok holds := by
  rw [predicate, compile, hl, ok_bind, hr, ok_bind, h]
  exact congrArg Except.ok (funext fun photo => by cases h : holds photo <;> simp [h])

/-- **The laws of comparison.**  If two trees compile to kinds that can be ordered, all comparisons
of theirs are predicates.  A photo that lacks one of the values passes none of the six; of any other
photo they are total; and of every photo a comparison says what its converse says with the sides
exchanged.  A tree of any kind but that of `null` equals itself exactly where it is present, which
is where it differs from `null`. -/
theorem comparison_laws :
    (∀ {l r : Expr} {c c' : Compiled}, l.compile = .ok c → r.compile = .ok c' →
      c.kind.Orderable c'.kind →
      ∃ forth back : Comparison → Image → Bool,
        (∀ op position, predicate (.comparison op position l r) = .ok (forth op)) ∧
        (∀ op position, predicate (.comparison op position r l) = .ok (back op)) ∧
        ∀ photo,
          (c.value photo = none ∨ c'.value photo = none → ∀ op, forth op photo = false) ∧
          (c.value photo ≠ none → c'.value photo ≠ none →
            Comparison.Total fun op => forth op photo) ∧
          ∀ op : Comparison, forth op photo = back op.converse photo) ∧
    ∀ {e : Expr} {c : Compiled}, e.compile = .ok c → c.kind ≠ .null →
      ∃ same present absent : Image → Bool,
        (∀ position, predicate (.comparison .equal position e e) = .ok same) ∧
        (∀ position place,
          predicate (.comparison .notEqual position e (.constant .null place)) = .ok present) ∧
        (∀ position place,
          predicate (.comparison .equal position e (.constant .null place)) = .ok absent) ∧
        ∀ photo, present photo = (c.value photo).isSome ∧ same photo = present photo ∧
          absent photo = !present photo := by
  constructor
  · intro l r c c' hl hr orderable
    -- one order of the two sides answers all twelve comparisons
    obtain ⟨order?, none, forth, back⟩ := Reading.ordered_of_orderable orderable
    refine ⟨_, _, fun op => predicate_comparison hl hr (forth op),
      fun op => predicate_comparison hr hl (back op), fun photo => ⟨?_, ?_, ?_⟩⟩
    · intro absent op
      rw [(none photo).mpr absent, Option.any_none]
    · intro hv hv'
      obtain ⟨o, ho⟩ := Option.ne_none_iff_exists'.mp
        (mt (none photo).mp (not_or_intro hv hv'))
      simpa only [ho, Option.any_some] using Comparison.total_holds o
    · intro op
      cases order? photo with
      | none => rfl
      | some o => exact (op.holds_converse o).symm
  · intro e c he hk
    -- against `null` and against itself, only the presence of the value counts
    have null (place : Nat) : compile (.constant .null place) = .ok ⟨.null, true, place⟩ := by
      rw [compile]
      rfl
    have against (op : Comparison) (hop : op.isEquality) (position place : Nat) :=
      predicate_comparison he (null place) (Reading.compared_null op hop c.reading) position
    refine ⟨_, _, _, predicate_comparison he he (Reading.compared_self hk), against .notEqual rfl,
      against .equal rfl, fun photo => ?_⟩
    rw [Compiled.value]
    cases c.reading.value photo <;> exact ⟨rfl, rfl, rfl⟩

/-- A year and an aperture are compared as numbers.  The year of an invalid date counts as equal to
every aperture, and so neither is less. -/
theorem comparison_laws_invalid_date :
    let year : Expr := .call (ofString "year") 0 [.property [ofString "dateTaken"] 5]
    let aperture : Expr := .property [ofString "exif", ofString "fNumber"] 20
    let photo : Image := ⟨ofString "a.jpg", .zero, .zero, some .invalid,
      some { fNumber := some (.ofDecimal false 28 2 (-1)) }⟩
    ∃ c c' : Compiled, year.compile = .ok c ∧ aperture.compile = .ok c' ∧
      c.kind.Orderable c'.kind ∧ c.value photo ≠ none ∧ c'.value photo ≠ none ∧
      ∃ outcome : Comparison → Image → Bool,
        (∀ op, predicate (.comparison op 16 year aperture) = .ok (outcome op)) ∧
        Comparison.Total (fun op => outcome op photo) ∧ outcome .equal photo = true := by
  intro year aperture photo
  have hl : year.compile = .ok ⟨.integer fun photo => photo.dateTaken.map (DatePart.read .year),
    true, 0⟩ := rfl
  have hr : aperture.compile = .ok ⟨.decimal fun photo => photo.exif.bind (·.fNumber), true, 20⟩ :=
    rfl
  obtain ⟨outcome, back, forth, -, laws⟩ :=
    comparison_laws.1 hl hr (.numbers .integer .decimal)
  have equal : ∃ test, predicate (.comparison .equal 16 year aperture) = .ok test ∧
    test photo = true := ⟨_, rfl, rfl⟩
  obtain ⟨test, ht, holds⟩ := equal
  obtain rfl := Except.ok.inj ((forth .equal 16).symm.trans ht)
  exact ⟨_, _, hl, hr, .numbers .integer .decimal, nofun, nofun, outcome, fun op => forth op 16,
    (laws photo).2.1 nofun nofun, holds⟩

end Expr

end PhotoQuery
