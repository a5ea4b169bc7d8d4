import PhotoQuery.Text.Case

/-!
# Text — letters in two cases

Two texts have the same letters (`Text.SameLetters`) if they differ at most in the case of ASCII
letters.  Such texts have the same length, and what one is cut into the other is cut into too.

Names of properties, functions and keywords are ASCII and are compared in small letters, so texts
with the same letters are the same names (`SameLetters.lower_eq`).
-/

namespace PhotoQuery.Text

/-- The unit; if it is a capital ASCII letter, the small one. -/
def smallUnit (u : CodeUnit) : CodeUnit := if isAsciiUpper u.toNat then u + 0x20 else u

/-- A letter from A to Z, in either case. -/
def isLetter (u : CodeUnit) : Bool := isAsciiUpper u.toNat || isAsciiLower u.toNat

/-- The texts differ at most in the case of ASCII letters. -/
def SameLetters (s t : Text) : Prop := s.map smallUnit = t.map smallUnit

instance (s t : Text) : Decidable (SameLetters s t) := inferInstanceAs (Decidable (_ = _))

/-- Every unit of the text is an ASCII one. -/
def IsAscii (text : Text) : Prop := ∀ u ∈ text, u.toNat < 0x80

/-! ### Units -/

/-- A capital letter is 32 below its small one, and any other unit is its own. -/
theorem toNat_smallUnit (u : CodeUnit) :
    (smallUnit u).toNat = if isAsciiUpper u.toNat then u.toNat + 0x20 else u.toNat := by
  unfold smallUnit
  split
  next capital =>
    simp only [isAsciiUpper, Bool.and_eq_true, decide_eq_true_eq] at capital
    rw [UInt16.toNat_add, show (0x20 : CodeUnit).toNat = 0x20 from rfl]
    omega
  next => rfl

/-- A unit that is no letter has one spelling. -/
theorem eq_of_smallUnit_eq {u v : CodeUnit} (h : smallUnit u = smallUnit v)
    (hv : isLetter v = false) : u = v := by
  have same := congrArg UInt16.toNat h
  simp only [isLetter, isAsciiUpper, isAsciiLower, Bool.or_eq_false_iff, Bool.and_eq_false_iff,
    decide_eq_false_iff_not] at hv
  rw [toNat_smallUnit, toNat_smallUnit] at same
  simp only [isAsciiUpper, Bool.and_eq_true, decide_eq_true_eq] at same
  rw [← UInt16.toNat_inj]
  split at same <;> split at same <;> omega

/-! ### Texts with the same letters -/

namespace SameLetters

variable {s t : Text}

theorem symm (h : SameLetters s t) : SameLetters t s := Eq.symm h

theorem length_eq (h : SameLetters s t) : s.length = t.length := by
  rw [← List.length_map smallUnit, h, List.length_map]

theorem drop (h : SameLetters s t) (n : Nat) : SameLetters (s.drop n) (t.drop n) := by
  rw [SameLetters, List.map_drop, h, List.map_drop]

/-- What is the same letters as an appended text is cut as it is. -/
theorem append_left {s₁ s₂ : Text} (h : SameLetters (s₁ ++ s₂) t) :
    ∃ t₁ t₂, t = t₁ ++ t₂ ∧ SameLetters s₁ t₁ ∧ SameLetters s₂ t₂ := by
  have parts : t.map smallUnit = s₁.map smallUnit ++ s₂.map smallUnit := by
    rw [← List.map_append]
    exact h.symm
  obtain ⟨t₁, t₂, rfl, h₁, h₂⟩ := List.map_eq_append_iff.mp parts
  exact ⟨t₁, t₂, rfl, h₁.symm, h₂.symm⟩

theorem cons_left {u : CodeUnit} (h : SameLetters (u :: s) t) :
    ∃ v rest, t = v :: rest ∧ smallUnit u = smallUnit v ∧ SameLetters s rest := by
  obtain ⟨v, rest, rfl, hv, hr⟩ := List.map_eq_cons_iff.mp h.symm
  exact ⟨v, rest, rfl, hv.symm, hr.symm⟩

/-- A text without letters has one spelling. -/
theorem eq_of_no_letter (h : SameLetters s t) (hs : ∀ u ∈ s, isLetter u = false) : t = s := by
  induction s generalizing t with
  | nil => exact List.map_eq_nil_iff.mp h.symm
  | cons u s ih =>
    rw [List.forall_mem_cons] at hs
    obtain ⟨v, rest, rfl, hv, hr⟩ := h.cons_left
    rw [eq_of_smallUnit_eq hv.symm hs.1, ih hr hs.2]

section

-- a test of units that does not tell the two cases of a letter apart
variable {p : CodeUnit → Prop} (hp : ∀ u, p (smallUnit u) ↔ p u)

include hp

/-- What holds of units up to their case, and of those of one text, holds of those of the other. -/
theorem forall_mem (h : SameLetters s t) (hs : ∀ u ∈ s, p u) : ∀ u ∈ t, p u := by
  have small : ∀ u ∈ s.map smallUnit, p u := by simpa [hp] using hs
  rw [h] at small
  simpa [hp] using small

theorem forall_head (h : SameLetters s t) (hs : ∀ u ∈ s.head?, p u) : ∀ u ∈ t.head?, p u := by
  intro v hv
  obtain ⟨rest, rfl⟩ := List.head?_eq_some_iff.mp hv
  obtain ⟨u, rest', rfl, same, -⟩ := h.symm.cons_left
  rw [← hp, same, hp]
  exact hs u rfl

end

end SameLetters

/-! ### Small letters -/

/-- The code points of an ASCII text are its units. -/
theorem points_of_isAscii {text : Text} (h : text.IsAscii) :
    text.points = text.map UInt16.toNat := by
  fun_induction points text with
  | case1 => rfl
  | case2 u => rfl
  | case3 u v rest pair ih =>
    -- no ASCII unit is half of a pair
    have ascii := h u List.mem_cons_self
    simp only [isHighSurrogate, Bool.and_eq_true, decide_eq_true_eq] at pair
    omega
  | case4 u v rest _ ih =>
    rw [ih fun w hw => h w (List.mem_cons_of_mem u hw)]
    rfl

/-- In an ASCII text, the small letters do not depend on what stands around them. -/
theorem lowerPoints_of_isAscii {text : Text} (h : text.IsAscii) (before : List Nat) :
    lowerPoints before (text.map UInt16.toNat) = (text.map smallUnit).map UInt16.toNat := by
  induction text generalizing before with
  | nil => rfl
  | cons u text ih =>
    have ascii := h u List.mem_cons_self
    have notSigma : u.toNat ≠ 0x3A3 := by omega
    have others : IsAscii text := fun w hw => h w (List.mem_cons_of_mem u hw)
    rw [List.map_cons, lowerPoints, if_neg notSigma, lowerPoint, if_pos ascii, ih others,
      List.map_cons, List.map_cons, toNat_smallUnit]
    rfl

theorem ofPoints_map_toNat (text : Text) : ofPoints (text.map UInt16.toNat) = text := by
  have single : ∀ u : CodeUnit, ofPoint u.toNat = [u] := by
    intro u
    rw [ofPoint, if_pos u.toNat_lt, UInt16.ofNat_toNat]
  rw [ofPoints, List.flatMap_map]
  simp only [single, List.flatMap_singleton']

/-- The small letters of an ASCII text are those of its units. -/
theorem lower_of_isAscii {text : Text} (h : text.IsAscii) : text.lower = text.map smallUnit := by
  rw [lower, points_of_isAscii h, lowerPoints_of_isAscii h, ofPoints_map_toNat]

/-- ASCII texts with the same letters are the same in small letters. -/
theorem SameLetters.lower_eq {s t : Text} (h : SameLetters s t) (hs : s.IsAscii) (ht : t.IsAscii) :
    s.lower = t.lower := by
  rw [lower_of_isAscii hs, lower_of_isAscii ht, h]

end PhotoQuery.Text
