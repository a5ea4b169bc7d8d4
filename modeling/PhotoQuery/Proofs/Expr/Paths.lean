import PhotoQuery.Proofs.Expr.Values
import PhotoQuery.Sort.Key

/-!
# Expr — what a tree sees of a photo

A compiled tree reads the whole record of a photo, but it sees no more of it than the values under
the paths that stand in the tree (`Expr.paths`): photos that agree on these have the same value
under the tree (`Expr.CompilesTo.value_eq`).

A block of EXIF data that holds nothing is no different from no block at all, under any path
(`Exif.HoldsNothing.valueUnder_eq`).
-/

namespace PhotoQuery

open Outcome

/-! ### Paths -/

/-- The value that the photo has under the path.  It has none under a path that names nothing. -/
def Image.valueUnder (photo : Image) (path : List Text) : Option Value :=
  match keyReader path with
  | .ok key => key photo
  | .error _ => none

/-- Under each of the paths the photos have the same value, or both have none. -/
def Image.AgreeOn (paths : List (List Text)) (a b : Image) : Prop :=
  ∀ path ∈ paths, a.valueUnder path = b.valueUnder path

instance (paths : List (List Text)) (a b : Image) : Decidable (Image.AgreeOn paths a b) :=
  inferInstanceAs (Decidable (∀ path ∈ paths, a.valueUnder path = b.valueUnder path))

namespace Expr

mutual

/-- The paths in the tree, from left to right. -/
def paths : Expr → List (List Text)
  | .logical _ _ left right => paths left ++ paths right
  | .comparison _ _ left right => paths left ++ paths right
  | .negation _ operand => paths operand
  | .call _ _ args => pathsAll args
  | .property path _ => [path]
  | .constant _ _ => []
  | .foreign _ => []

/-- The paths in the trees, from left to right. -/
def pathsAll : List Expr → List (List Text)
  | [] => []
  | e :: es => paths e ++ pathsAll es

end

end Expr

variable {a b : Image}

theorem Image.valueUnder_eq {path : List Text} {key : Image → Option Value}
    (h : keyReader path = .ok key) (photo : Image) : photo.valueUnder path = key photo := by
  rw [valueUnder, h]

/-- A path that names a property has that property's values as its key. -/
theorem Property.Names.keyReader {path : List Text} {property : Property}
    (h : Property.Names path property) :
    PhotoQuery.keyReader path = .ok property.reading.value := by
  rw [PhotoQuery.keyReader, Property.ofPath_eq_ok.mpr h, map_ok]

namespace Image.AgreeOn

variable {paths paths' : List (List Text)}

theorem mono (h : Image.AgreeOn paths a b) (hp : ∀ path ∈ paths', path ∈ paths) :
    Image.AgreeOn paths' a b :=
  fun path hpath => h path (hp path hpath)

theorem left (h : Image.AgreeOn (paths ++ paths') a b) : Image.AgreeOn paths a b :=
  h.mono fun _ => List.mem_append_left paths'

theorem right (h : Image.AgreeOn (paths ++ paths') a b) : Image.AgreeOn paths' a b :=
  h.mono fun _ => List.mem_append_right paths

end Image.AgreeOn

/-! ### Readings -/

namespace Reading

theorem read_eq_of_string {read : Image → Option Text}
    (h : (string read).value a = (string read).value b) : read a = read b :=
  (Option.map_inj_right fun _ _ => Value.string.inj).mp h

theorem read_eq_of_boolean {read : Image → Option Bool}
    (h : (boolean read).value a = (boolean read).value b) : read a = read b :=
  (Option.map_inj_right fun _ _ => Value.boolean.inj).mp h

theorem read_eq_of_date {read : Image → Option Timestamp}
    (h : (date read).value a = (date read).value b) : read a = read b :=
  (Option.map_inj_right fun _ _ => Value.date.inj).mp h

/-- Photos with the same value under a reading of numbers have the same number. -/
theorem read_eq_of_number {r : Reading} {read : Image → Option Number}
    (hr : r.number? = some read) (h : r.value a = r.value b) : read a = read b := by
  cases r with
  | integer _ | decimal _ =>
    cases hr
    exact (Option.map_inj_right fun _ _ => Value.number.inj).mp h
  | _ => cases hr

/-- A comparison sees of a photo what its sides see. -/
theorem Compares.value_eq {op : Comparison} {l r c : Reading} (h : Compares op l r c)
    (hl : l.value a = l.value b) (hr : r.value a = r.value b) : c.value a = c.value b := by
  have compared {β : Type} {order : β → β → Ordering} {f g : Image → Option β} (hf : f a = f b)
      (hg : g a = g b) : (present op order f g).value a = (present op order f g).value b := by
    simp only [present, value_test, hf, hg]
  cases h with
  | nullLeft => simp only [presence, value_test, hr]
  | nullRight => simp only [presence, value_test, hl]
  | strings => exact compared (read_eq_of_string hl) (read_eq_of_string hr)
  | dates => exact compared (read_eq_of_date hl) (read_eq_of_date hr)
  | booleans => exact compared (read_eq_of_boolean hl) (read_eq_of_boolean hr)
  | numbers nl nr => exact compared (read_eq_of_number nl hl) (read_eq_of_number nr hr)

end Reading

/-! ### Trees -/

/-- **A tree sees no more than its paths.** -/
theorem Expr.CompilesTo.value_eq {e : Expr} {c : Compiled} (h : CompilesTo e c)
    (agree : Image.AgreeOn e.paths a b) : c.value a = c.value b := by
  induction h with
  | constant value position => cases value <;> rfl
  | property position names =>
    rw [paths] at agree
    have same := agree _ List.mem_cons_self
    rwa [Image.valueUnder_eq names.keyReader, Image.valueUnder_eq names.keyReader] at same
  | negation position _ ih =>
    rw [paths] at agree
    have same := Reading.read_eq_of_boolean (ih agree)
    simp only [Compiled.value, Reading.negated, Reading.value_test, same]
  | logical connective position _ _ ihl ihr =>
    rw [paths] at agree
    have left := Reading.read_eq_of_boolean (ihl agree.left)
    have right := Reading.read_eq_of_boolean (ihr agree.right)
    simp only [Compiled.value, Reading.joined, Reading.value_test, left, right]
  | comparison position _ _ hc ihl ihr =>
    rw [paths] at agree
    exact hc.value_eq (ihl agree.left) (ihr agree.right)
  | datePart part position _ _ ih =>
    rw [paths, pathsAll] at agree
    have same := Reading.read_eq_of_date (ih agree.left)
    simp only [Compiled.value, Reading.value, same]
  | stringTest test position _ _ _ iht ihn =>
    rw [paths, pathsAll, pathsAll] at agree
    have text := Reading.read_eq_of_string (iht agree.left)
    have needle := Reading.read_eq_of_string (ihn agree.right.left)
    simp only [Compiled.value, Reading.value_test, text, needle]
  | caseForm form position _ _ ih =>
    rw [paths, pathsAll] at agree
    have same := Reading.read_eq_of_string (ih agree.left)
    simp only [Compiled.value, Reading.value, same]

/-- A predicate holds of both photos or of neither. -/
theorem Expr.predicate_agree {e : Expr} {holds : Image → Bool} (h : e.predicate = .ok holds)
    (agree : Image.AgreeOn e.paths a b) : holds a = holds b := by
  obtain ⟨c, compiled, h⟩ := bind_eq_ok.mp h
  obtain ⟨read, asked, he⟩ := bind_eq_ok.mp h
  cases he
  have same := (compilesTo_of_compile compiled).value_eq agree
  rw [Compiled.value, Compiled.value, Reading.asBoolean_eq_ok.mp asked] at same
  simp only [Reading.read_eq_of_boolean same]

/-! ### Blocks that hold nothing -/

/-- The block of EXIF data holds nothing: it is missing, or empty, or has no more than an empty list
of raw tags. -/
inductive Exif.HoldsNothing : Option Exif → Prop where
  | missing : HoldsNothing none
  | empty : HoldsNothing (some {})
  | untagged : HoldsNothing (some { raw := some [] })

/-- In a block that holds nothing every property looks as if there were no block. -/
theorem Property.value_of_holdsNothing {block : Option Exif} (h : Exif.HoldsNothing block)
    (property : Property) (photo : Image) :
    property.reading.value { photo with exif := block } =
      property.reading.value { photo with exif := none } := by
  cases property with
  | image field => cases field <;> rfl
  | exif field => cases h <;> cases field <;> rfl
  | raw tag => cases h <;> rfl

/-- **Blocks that hold nothing look the same**, under whatever path. -/
theorem Exif.HoldsNothing.valueUnder_eq {block block' : Option Exif} (h : HoldsNothing block)
    (h' : HoldsNothing block') (photo : Image) (path : List Text) :
    Image.valueUnder { photo with exif := block } path =
      Image.valueUnder { photo with exif := block' } path := by
  cases found : keyReader path with
  | error e => rw [Image.valueUnder, Image.valueUnder, found]
  | ok key =>
    obtain ⟨property, -, rfl⟩ := map_eq_ok.mp found
    rw [Image.valueUnder_eq found, Image.valueUnder_eq found, property.value_of_holdsNothing h,
      property.value_of_holdsNothing h']

end PhotoQuery
