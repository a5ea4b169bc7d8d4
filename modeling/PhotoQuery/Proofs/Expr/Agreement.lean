import Mathlib.Data.List.Nodup
import PhotoQuery.Proofs.Expr.Checking
import PhotoQuery.Proofs.Expr.Interpreter
import PhotoQuery.Proofs.Expr.Values
import PhotoQuery.Proofs.Number.Order
import PhotoQuery.Proofs.Text.Order

/-!
# Expr — compiling agrees with interpreting

A compiled tree gives for every photo what walking the tree gives (`Expr.interpret_of_compile`).
The interpreter meets the tables, the functions and the operators one by one; each agrees with what
the compiler has put into the reading, and the trees follow by induction on the rules of
compilation.

The interpreter never gets stuck on a compiled tree.  It would on a connective with an absent side,
and it does not because truth values are never absent.
-/

namespace PhotoQuery

open Text Interpreter

/-! ### Names -/

/-- In a table without equal names, an entry is found under its name. -/
theorem Interpreter.named?_of_mem {α : Type} {table : List (String × α)} {names : List String}
    {name : Text} {row : String × α} (hnames : table.map Prod.fst = names)
    (distinct : (names.map fun n => (ofString n).lower).Nodup) (h : row ∈ table)
    (hn : name.IsNamed row.1) : named? table name = some row.2 := by
  subst hnames
  rw [List.map_map] at distinct
  have same : ∀ r : String × α, decide (name.lower = (ofString r.1).lower) = true ↔
      name.lower = (ofString r.1).lower := fun r => decide_eq_true_iff
  have found : table.find? (fun r => decide (name.lower = (ofString r.1).lower)) = some row :=
    (find?_key_eq_some (fun r hr r' hr' => List.inj_on_of_nodup_map distinct hr hr') same h).mpr hn
  rw [named?, found, Option.map_some]

/-- The interpreter finds a field of the photo under its name, with what the field reads. -/
theorem ImageField.named?_eq (field : ImageField) (photo : Image) {name : Text}
    (h : name.IsNamed field.name) :
    named? (imageFields photo) name = some (field.reading.value photo) := by
  have names : (imageFields photo).map Prod.fst = all.map ImageField.name := rfl
  have row : (field.name, field.reading.value photo) ∈ imageFields photo := by
    cases field <;> simp [imageFields, ImageField.name, ImageField.reading, Reading.value]
  exact named?_of_mem names (by decide) row h

/-- The interpreter finds a field of the camera's data under its name, with what the field reads;
without data, it looks in an empty block. -/
theorem ExifField.named?_eq (field : ExifField) (photo : Image) {name : Text}
    (h : name.IsNamed field.name) :
    named? (exifFields (photo.exif.getD {})) name = some (field.reading.value photo) := by
  have names : (exifFields (photo.exif.getD {})).map Prod.fst = all.map ExifField.name := rfl
  have row : (field.name, field.reading.value photo) ∈ exifFields (photo.exif.getD {}) := by
    cases block : photo.exif <;> cases field <;>
      simp [exifFields, ExifField.name, ExifField.reading, Reading.value, block]
  exact named?_of_mem names (by decide) row h

/-- Under the path of a property the photo holds what the property reads. -/
theorem Property.Names.under_eq {path : List Text} {property : Property} (h : Names path property)
    (photo : Image) : under photo path = some (property.reading.value photo) := by
  cases h with
  | image field h => exact field.named?_eq photo h
  | exif field hr h =>
    rw [under, if_pos hr]
    exact field.named?_eq photo h
  | raw tag hr h =>
    rw [under, if_pos ⟨hr, h⟩]
    cases hb : photo.exif with
    | none => simp [Property.reading, Reading.value, hb]
    | some block =>
      cases ht : block.raw <;> simp [Property.reading, Reading.value, hb, ht, Option.bind]

/-! ### Functions -/

theorem Function.named?_eq {f : Function} {name : Text}
    {call : List (Option Value) → Option (Option Value)} (hn : name.IsNamed f.name)
    (h : (f.name, call) ∈ builtins) : named? builtins name = some call := by
  have names : builtins.map Prod.fst = all.map Function.name := rfl
  exact named?_of_mem names (by decide) h hn

/-- The part of a day. -/
def DatePart.ofDay : DatePart → CalendarDay → Int
  | .year => CalendarDay.year
  | .month => CalendarDay.month
  | .day => CalendarDay.day

theorem DatePart.named?_eq (part : DatePart) {name : Text}
    (hn : name.IsNamed (Function.name (.datePart part))) :
    named? builtins name = some (passing (partOf part.ofDay)) :=
  Function.named?_eq hn (by cases part <;> simp [builtins, Function.name, ofDay])

theorem DatePart.partOf_eq (part : DatePart) (date : Timestamp) :
    partOf part.ofDay (.date date) = some (.number (part.read date)) := by
  cases date with
  | instant ms => cases part <;> rfl
  | invalid => rfl

theorem CaseForm.named?_eq (form : CaseForm) {name : Text}
    (hn : name.IsNamed (Function.name (.caseForm form))) :
    named? builtins name = some (passing (formOf form.apply)) :=
  Function.named?_eq hn (by cases form <;> simp [builtins, Function.name, apply])

theorem CaseForm.formOf_eq (form : CaseForm) (text : Text) :
    formOf form.apply (.string text) = some (.string (form.apply text)) := rfl

/-- A text contains a needle that stands somewhere in it. -/
theorem Text.contains_iff {text needle : Text} : text.contains needle ↔ needle <:+: text := by
  induction text with
  | nil => simp [Text.contains]
  | cons u rest ih => simp [Text.contains, ih, List.infix_cons_iff]

/-- The test of two strings as they are. -/
def StringTest.ofTexts : StringTest → Text → Text → Bool
  | .contains => fun text needle => needle <:+: text
  | .startsWith => fun text needle => needle <+: text
  | .endsWith => fun text needle => needle <:+ text

theorem StringTest.named?_eq (test : StringTest) {name : Text}
    (hn : name.IsNamed (Function.name (.stringTest test))) :
    named? builtins name = some (testing test.ofTexts) :=
  Function.named?_eq hn (by cases test <;> simp [builtins, Function.name, ofTexts])

/-- A test of strings looks for the small letters of the one in those of the other. -/
theorem StringTest.holds_eq (test : StringTest) (text needle : Text) :
    test.holds text needle = test.ofTexts text.lower needle.lower := by
  rw [Bool.eq_iff_iff]
  cases test with
  | contains => simp only [holds, ofTexts, contains_iff, decide_eq_true_eq]
  | startsWith => simp only [holds, ofTexts, List.isPrefixOf_iff_prefix, decide_eq_true_eq]
  | endsWith => simp only [holds, ofTexts, List.isSuffixOf_iff_suffix, decide_eq_true_eq]

/-- A function that absence passes through maps the values that are there. -/
theorem Interpreter.passing_map {α β : Type} {f : Value → Option Value} {inject : α → Value}
    {inject' : β → Value} {g : α → β} (h : ∀ a, f (inject a) = some (inject' (g a)))
    (side : Option α) : passing f [side.map inject] = some ((side.map g).map inject') := by
  cases side with
  | none => rfl
  | some a => simp [passing, h]

/-- A test of two strings is false unless both are there. -/
theorem StringTest.testing_map (test : StringTest) (text needle : Option Text) :
    testing test.ofTexts [text.map .string, needle.map .string] =
      some (some (.boolean (match text, needle with
        | some t, some n => test.holds t n
        | _, _ => false))) := by
  cases text with
  | none => rfl
  | some t =>
    cases needle with
    | none => rfl
    | some n => simp [testing, test.holds_eq]

/-! ### Comparisons -/

namespace Comparison

/-- Against `null`, an equality asks whether the other side is absent. -/
theorem ofAbsence_eq {op : Comparison} (h : op.isEquality) (side : Option Value) :
    op.ofAbsence side = some (side.isNone == op.holds .eq) := by
  cases op with
  | equal => cases side <;> rfl
  | notEqual => cases side <;> rfl
  | _ => cases h

/-- A comparison of two values goes by their order alone. -/
theorem holds_eq_ofOrder (op : Comparison) {o : Ordering} {before after : Bool}
    (hb : o = .lt ↔ before) (ha : o = .gt ↔ after) : op.holds o = op.ofOrder before after := by
  cases o with
  | lt =>
    obtain rfl : before = true := hb.mp rfl
    obtain rfl : after = false := by simpa using ha
    cases op <;> rfl
  | eq =>
    obtain rfl : before = false := by simpa using hb
    obtain rfl : after = false := by simpa using ha
    cases op <;> rfl
  | gt =>
    obtain rfl : before = false := by simpa using hb
    obtain rfl : after = true := ha.mp rfl
    cases op <;> rfl

/-- An equality of truth values goes by their order, too. -/
theorem ofTruths_eq {op : Comparison} (h : op.isEquality) (a b : Bool) :
    op.ofTruths a b = some (op.holds (compare a b)) := by
  cases op with
  | equal => cases a <;> cases b <;> rfl
  | notEqual => cases a <;> cases b <;> rfl
  | _ => cases h

end Comparison

/-- The order that a comparison goes by, from the order of values that may have none: without one,
the two count as equal. -/
theorem Comparison.holds_getD_eq_ofOrder (op : Comparison) {o o' : Option Ordering}
    (h : o' = o.map Ordering.swap) :
    op.holds (o.getD .eq) = op.ofOrder (o == some .lt) (o' == some .lt) := by
  subst h
  refine op.holds_eq_ofOrder ?_ ?_
  · cases o <;> simp
  · cases o <;> simp

/-- Where neither side is `null`, a comparison is that of the values, and false unless both are
there. -/
theorem Comparison.ofOperands_map {α : Type} {op : Comparison} {order : α → α → Ordering}
    {inject : α → Value} {nullLeft nullRight : Bool} (hl : ¬ nullLeft) (hr : ¬ nullRight)
    (h : ∀ a b, op.ofValues (inject a) (inject b) = some (op.holds (order a b)))
    (left right : Option α) :
    op.ofOperands nullLeft nullRight (left.map inject) (right.map inject) =
      some (match left, right with
        | some a, some b => op.holds (order a b)
        | _, _ => false) := by
  rw [ofOperands, if_neg hl, if_neg hr]
  cases left with
  | none => rfl
  | some a =>
    cases right with
    | none => rfl
    | some b => exact h a b

/-- What is read as numbers is not `null`, and its values are these numbers. -/
theorem Reading.kind_ne_null_of_number? {r : Reading} {read : Image → Option Number}
    (h : r.number? = some read) :
    r.kind ≠ .null ∧ ∀ photo, r.value photo = (read photo).map .number := by
  cases r with
  | integer => cases h; exact ⟨nofun, fun _ => rfl⟩
  | decimal => cases h; exact ⟨nofun, fun _ => rfl⟩
  | _ => cases h

/-- A comparison of two readings is what the interpreter makes of their values. -/
theorem Reading.Compares.ofOperands_eq {op : Comparison} {l r c : Reading} (h : Compares op l r c)
    {nullLeft nullRight : Bool} (hl : nullLeft ↔ l.kind = .null)
    (hr : nullRight ↔ r.kind = .null) :
    ∃ holds, c = test holds ∧ ∀ photo,
      op.ofOperands nullLeft nullRight (l.value photo) (r.value photo) = some (holds photo) := by
  cases h with
  | nullLeft r he =>
    refine ⟨_, rfl, fun photo => ?_⟩
    rw [Comparison.ofOperands, if_pos (hl.mpr rfl), Comparison.ofAbsence_eq he]
  | nullRight l he =>
    refine ⟨_, rfl, fun photo => ?_⟩
    -- of two `null`s the left one decides
    cases l with
    | null => rw [Comparison.ofOperands, if_pos (hl.mpr rfl), Comparison.ofAbsence_eq he]
    | _ =>
      rw [Comparison.ofOperands, if_neg (mt hl.mp nofun), if_pos (hr.mpr rfl),
        Comparison.ofAbsence_eq he]
  | strings l r =>
    refine ⟨_, rfl, fun photo =>
      Comparison.ofOperands_map (mt hl.mp nofun) (mt hr.mp nofun) (fun a b => ?_) _ _⟩
    have agree : op.holds (compare a b) = op.ofOrder (decide (a < b)) (decide (b < a)) :=
      op.holds_eq_ofOrder (by simp [compare_eq_lt]) (by simp [compare_eq_gt])
    exact congrArg some agree.symm
  | dates l r =>
    refine ⟨_, rfl, fun photo =>
      Comparison.ofOperands_map (mt hl.mp nofun) (mt hr.mp nofun) (fun a b => ?_) _ _⟩
    exact congrArg some (op.holds_getD_eq_ofOrder (Timestamp.compare?_swap a b)).symm
  | booleans l r he =>
    exact ⟨_, rfl, fun photo => Comparison.ofOperands_map (mt hl.mp nofun) (mt hr.mp nofun)
      (Comparison.ofTruths_eq he) _ _⟩
  | numbers hnl hnr =>
    obtain ⟨kindLeft, valueLeft⟩ := kind_ne_null_of_number? hnl
    obtain ⟨kindRight, valueRight⟩ := kind_ne_null_of_number? hnr
    refine ⟨_, rfl, fun photo => ?_⟩
    rw [valueLeft, valueRight]
    refine Comparison.ofOperands_map (mt hl.mp kindLeft) (mt hr.mp kindRight) ?_ _ _
    intro a b
    exact congrArg some (op.holds_getD_eq_ofOrder (Number.compare?_swap a b)).symm

/-! ### Trees -/

theorem Constant.value_reading (value : Constant) (photo : Image) :
    value.reading.value photo = value.held := by
  cases value <;> rfl

/-- A connective joins truth values as the interpreter does. -/
theorem Connective.holds_eq (connective : Connective) (a b : Bool) :
    connective.holds a b = connective.ofTruths a b := by
  cases connective <;> rfl

theorem Property.kind_ne_null (property : Property) : property.reading.kind ≠ .null := by
  cases property with
  | image field => cases field <;> nofun
  | exif field => cases field <;> nofun
  | raw tag => nofun

namespace Expr

/-- Of the compiled trees only the literal `null` has no values. -/
theorem CompilesTo.isNull_iff {e : Expr} {c : Compiled} (h : CompilesTo e c) :
    e.isNull ↔ c.kind = .null := by
  cases h with
  | constant value position =>
    cases value <;> simp [isNull, Compiled.kind, Constant.reading, Reading.kind]
  | property position h =>
    exact iff_of_false Bool.false_ne_true (Property.kind_ne_null _)
  | comparison position hl hr hc =>
    obtain ⟨holds, rfl⟩ := hc.exists_test
    exact iff_of_false Bool.false_ne_true (fun kind => by cases kind)
  | _ => exact iff_of_false Bool.false_ne_true (fun kind => by cases kind)

/-- A compiled tree of truth values has one for every photo. -/
theorem CompilesTo.exists_truth {e : Expr} {read : Image → Option Bool} {optional : Bool}
    {position : Nat} (h : CompilesTo e ⟨.boolean read, optional, position⟩) (photo : Image) :
    ∃ truth, read photo = some truth := by
  have present := h.faithful.present (h.faithful.boolean rfl) photo
  exact Option.ne_none_iff_exists'.mp (mt Option.map_eq_none_iff.mpr present)

/-- Interpreting a compiled tree gives the value of its compiled form. -/
theorem CompilesTo.interpret_eq {e : Expr} {c : Compiled} (h : CompilesTo e c) (photo : Image) :
    e.interpret photo = some (c.value photo) := by
  induction h with
  | constant value position =>
    rw [interpret, Compiled.value, Constant.value_reading]
  | property position h => rw [interpret, h.under_eq, Compiled.value]
  | negation position h ih =>
    obtain ⟨truth, ht⟩ := h.exists_truth photo
    rw [interpret, ih]
    simp only [Compiled.value, Reading.value, Reading.negated, Reading.test, ht]
    cases truth <;> rfl
  | logical connective position hl hr ihl ihr =>
    obtain ⟨a, ha⟩ := hl.exists_truth photo
    obtain ⟨b, hb⟩ := hr.exists_truth photo
    rw [interpret, ihl, ihr]
    simp only [Compiled.value, Reading.value, Reading.joined, Reading.test, ha, hb,
      connective.holds_eq]
    cases a <;> cases b <;> rfl
  | comparison position hl hr hc ihl ihr =>
    obtain ⟨holds, rfl, agree⟩ := hc.ofOperands_eq hl.isNull_iff hr.isNull_iff
    simp only [interpret, ihl, ihr, Option.bind_eq_bind, Option.bind_some, Compiled.value, agree,
      Reading.value_test]
  | datePart part position hn h ih =>
    simp only [interpret, interpretAll, ih, part.named?_eq hn, Option.bind_eq_bind,
      Option.bind_some, Compiled.value, Reading.value]
    exact passing_map part.partOf_eq _
  | stringTest test position hn ht h iht ih =>
    simp only [interpret, interpretAll, iht, ih, test.named?_eq hn, Option.bind_eq_bind,
      Option.bind_some, Compiled.value, Reading.value]
    exact test.testing_map _ _
  | caseForm form position hn h ih =>
    simp only [interpret, interpretAll, ih, form.named?_eq hn, Option.bind_eq_bind,
      Option.bind_some, Compiled.value, Reading.value]
    exact passing_map form.formOf_eq _

/-- A compiled tree is a test exactly if it reads truth values, and holds where it reads true. -/
theorem predicate_eq_ok_iff {e : Expr} {c : Compiled} (h : e.compile = .ok c)
    {test : Image → Bool} : e.predicate = .ok test ↔
      ∃ read, c.reading = .boolean read ∧ test = fun photo => read photo == some true := by
  rw [predicate, h, Outcome.ok_bind, Outcome.bind_eq_ok]
  simp only [Reading.asBoolean_eq_ok, Except.ok.injEq, eq_comm]

/-- **Compiling agrees with interpreting.**  On every photo a compiled tree gives what interpreting
the tree gives.  If that is a truth value, the tree is compiled to a test too, and the test holds
exactly of the photos on which interpreting the tree gives true. -/
theorem interpret_of_compile {e : Expr} {c : Compiled} (h : e.compile = .ok c) :
    (∀ photo, e.interpret photo = some (c.value photo)) ∧
      (c.kind = .boolean ↔ ∃ test, e.predicate = .ok test) ∧
      ∀ test, e.predicate = .ok test →
        ∀ photo, test photo = true ↔ e.interpret photo = some (some (.boolean true)) := by
  have agree := (compilesTo_of_compile h).interpret_eq
  refine ⟨agree, ⟨fun kind => ?_, ?_⟩, ?_⟩
  · obtain ⟨read, hr⟩ := Reading.exists_boolean kind
    exact ⟨_, (predicate_eq_ok_iff h).mpr ⟨read, hr, rfl⟩⟩
  · rintro ⟨test, ht⟩
    obtain ⟨read, hr, -⟩ := (predicate_eq_ok_iff h).mp ht
    rw [Compiled.kind, hr, Reading.kind]
  · intro test ht photo
    obtain ⟨read, hr, rfl⟩ := (predicate_eq_ok_iff h).mp ht
    simp [agree, Compiled.value, hr, Reading.value]

/-- `not (exif.iso != 3) and contains(filename, 'B')`, on a photo `ab.jpg` without an EXIF block:
the comparison with the absent speed is false, and the test looks at small letters. -/
theorem interpret_of_compile_absent_iso :
    let e : Expr := .logical .and 20
      (.negation 0 (.comparison .notEqual 14 (.property [ofString "exif", ofString "iso"] 5)
        (.constant (.integer (.ofNat 3)) 17)))
      (.call (ofString "contains") 24 [.property [ofString "filename"] 33,
        .constant (.string (ofString "B")) 43])
    let photo : Image := { filename := ofString "ab.jpg", width := .zero, height := .zero }
    ∃ c, e.compile = .ok c ∧ c.value photo = some (.boolean true) ∧
      (∀ photo, e.interpret photo = some (c.value photo)) ∧
      (c.kind = .boolean ↔ ∃ test, e.predicate = .ok test) ∧
      ∀ test, e.predicate = .ok test →
        ∀ photo, test photo = true ↔ e.interpret photo = some (some (.boolean true)) := by
  intro e photo
  obtain ⟨c, hc⟩ : ∃ c, e.compile = .ok c := ⟨_, rfl⟩
  refine ⟨c, hc, ?_, interpret_of_compile hc⟩
  have value : (e.compile.toOption.bind fun c => c.value photo) = some (.boolean true) := by
    decide +kernel
  rwa [hc] at value

end Expr

end PhotoQuery
