import PhotoQuery.Number.Literal

/-!
# Number — numerals

A numeral is a run of decimal digits, `Text.numeral` is the natural number it denotes, and a
fraction numeral is two numerals with a point between them.  These are the only numeric texts that
a source can hold.

* `Number.ofText_numeral`: a numeral reads as the number nearest to what it denotes.
* `Number.ofText_fraction`: a fraction numeral reads as the number nearest to the fraction it
  denotes, `w.f` being the digits `wf` over `10 ^ |f|`.
-/

namespace PhotoQuery

namespace Text

/-- A non-empty run of decimal digits. -/
def IsNumeral (text : Text) : Prop := text ≠ [] ∧ ∀ u ∈ text, isDigit u

instance (text : Text) : Decidable (IsNumeral text) :=
  decidable_of_iff (text ≠ [] ∧ text.all isDigit) (by rw [IsNumeral, List.all_eq_true])

/-- Two numerals with a point between them. -/
def IsFraction (text : Text) : Prop :=
  ∃ whole fraction, IsNumeral whole ∧ IsNumeral fraction ∧ text = whole ++ unit '.' :: fraction

/-- The natural number that follows `acc` when decimal digits are read. -/
def numeralFrom (acc : Nat) (text : Text) : Nat :=
  text.foldl (fun n u => n * 10 + (u.toNat - 0x30)) acc

/-- The natural number that a numeral denotes. -/
def numeral (text : Text) : Nat := numeralFrom 0 text

/-! ### Digits -/

theorem isDigit_iff {u : CodeUnit} : isDigit u ↔ 0x30 ≤ u.toNat ∧ u.toNat ≤ 0x39 := by
  simp only [isDigit, Bool.and_eq_true, decide_eq_true_eq, UInt16.le_iff_toNat_le]
  rfl

/-- A digit is none of the units that end or mark a number. -/
theorem ne_of_isDigit {u v : CodeUnit} (h : isDigit u) (hv : v.toNat < 0x30 ∨ 0x39 < v.toNat) :
    u ≠ v := by
  rintro rfl
  have := isDigit_iff.mp h
  omega

theorem not_isBlank_of_isDigit {u : CodeUnit} (h : isDigit u) : isBlank u = false := by
  have := isDigit_iff.mp h
  simp only [isBlank, Bool.or_eq_false_iff, Bool.and_eq_false_iff, decide_eq_false_iff_not,
    beq_eq_false_iff_ne]
  omega

theorem IsNumeral.append {a b : Text} (ha : IsNumeral a) (hb : IsNumeral b) :
    IsNumeral (a ++ b) :=
  ⟨fun h => ha.1 (List.append_eq_nil_iff.mp h).1, fun u hu => by
    rcases List.mem_append.mp hu with hu | hu
    · exact ha.2 u hu
    · exact hb.2 u hu⟩

/-! ### Runs of digits -/

/-- A run of digits is read to its end. -/
theorem natFrom?_digits {text : Text} (h : ∀ u ∈ text, isDigit u) (acc : Nat) :
    natFrom? 10 acc text = some (numeralFrom acc text) := by
  induction text generalizing acc with
  | nil => rfl
  | cons u rest ih =>
    have hu : isDigit u := h u (by simp)
    have hd : digitValue? u = some (u.toNat - 0x30) := by simp [digitValue?, hu]
    have hlt : u.toNat - 0x30 < 10 := by have := isDigit_iff.mp hu; omega
    simp only [natFrom?, hd, Option.bind_eq_bind, Option.bind_some, hlt, if_true]
    exact ih (fun v hv => h v (by simp [hv])) _

/-- A numeral is read as the natural number that it denotes. -/
theorem toNat?_numeral {text : Text} (h : IsNumeral text) :
    toNat? 10 text = some (numeral text) := by
  simp only [toNat?, List.isEmpty_eq_false_iff.mpr h.1]
  exact natFrom?_digits h.2 0

theorem trim_eq_self {text : Text} (h : ∀ u ∈ text, isBlank u = false) : trim text = text := by
  have start : ∀ t : Text, (∀ u ∈ t, isBlank u = false) → t.dropWhile isBlank = t := by
    intro t ht
    cases t with
    | nil => rfl
    | cons u rest => simp [ht u (by simp)]
  rw [trim, trimStart, start text h, trimEnd, start _ fun u hu => h u (List.mem_reverse.mp hu),
    List.reverse_reverse]

/-- A digit first, and neither a sign nor a word. -/
theorem splitSign_digit {u : CodeUnit} (h : isDigit u) (rest : Text) :
    splitSign (u :: rest) = (false, u :: rest) := by
  have h₁ : u ≠ unit '-' := ne_of_isDigit h (by decide)
  have h₂ : u ≠ unit '+' := ne_of_isDigit h (by decide)
  simp [splitSign, h₁, h₂]

/-! ### Natural numbers in decimal -/

theorem toNat_unit {c : Char} (h : c.toNat < 0x10000) : (unit c).toNat = c.toNat :=
  UInt16.toNat_ofNat_of_lt h

theorem isDigit_unit {c : Char} (h : c.isDigit) : c.toNat < 0x10000 ∧ isDigit (unit c) := by
  have bounds : 0x30 ≤ c.toNat ∧ c.toNat ≤ 0x39 := Char.isDigit_iff_toNat.mp h
  have small : c.toNat < 0x10000 := by omega
  exact ⟨small, isDigit_iff.mpr (by rwa [toNat_unit small])⟩

/-- A string without surrogate pairs has one unit for each character. -/
theorem ofString_eq_map {s : String} (h : ∀ c ∈ s.toList, c.toNat < 0x10000) :
    ofString s = s.toList.map unit := by
  rw [ofString, ofPoints, List.flatMap_map]
  generalize s.toList = cs at h
  induction cs with
  | nil => rfl
  | cons c cs ih =>
    rw [List.forall_mem_cons] at h
    rw [List.flatMap_cons, List.map_cons, ofPoint, if_pos h.1, ih h.2]
    rfl

theorem isDigit_of_mem_toDigits {n : Nat} {c : Char} (h : c ∈ Nat.toDigits 10 n) : c.isDigit :=
  Nat.isDigit_of_mem_toDigits (by decide) (by decide) h

/-- A natural number is written as its decimal digits, one unit for each. -/
theorem ofNat_eq_map (n : Nat) : ofNat n = (Nat.toDigits 10 n).map unit := by
  rw [ofNat, ofString_eq_map, Nat.toList_repr]
  intro c hc
  rw [Nat.toList_repr] at hc
  exact (isDigit_unit (isDigit_of_mem_toDigits hc)).1

/-- A natural number is written as a numeral. -/
theorem isNumeral_ofNat (n : Nat) : IsNumeral (ofNat n) := by
  rw [ofNat_eq_map]
  refine ⟨by simp, ?_⟩
  intro u hu
  obtain ⟨c, hc, rfl⟩ := List.mem_map.mp hu
  exact (isDigit_unit (isDigit_of_mem_toDigits hc)).2

/-- Reading digits as units is reading them as characters. -/
theorem numeralFrom_map_unit {cs : List Char} (h : ∀ c ∈ cs, c.isDigit) (acc : Nat) :
    numeralFrom acc (cs.map unit) = Nat.ofDigitChars 10 cs acc := by
  induction cs generalizing acc with
  | nil => rfl
  | cons c cs ih =>
    rw [List.forall_mem_cons] at h
    have digit := toNat_unit (isDigit_unit h.1).1
    rw [List.map_cons, Nat.ofDigitChars_cons, ← ih h.2, numeralFrom, List.foldl_cons, digit,
      Nat.mul_comm]
    rfl

/-- The numeral that a natural number is written as denotes it. -/
theorem numeral_ofNat (n : Nat) : numeral (ofNat n) = n := by
  rw [ofNat_eq_map, numeral, numeralFrom_map_unit fun c => isDigit_of_mem_toDigits,
    Nat.ofDigitChars_ten_toDigits]

end Text

namespace Number

open Text

/-- No base mark is a digit or a point. -/
theorem based?_eq_none {u v : CodeUnit} {rest : Text} (h : isDigit v ∨ v = unit '.') :
    based? (u :: v :: rest) = none := by
  have ne : ∀ c : CodeUnit, 0x39 < c.toNat → v ≠ c := by
    rintro c hc rfl
    rcases h with h | rfl
    · have := isDigit_iff.mp h; omega
    · exact absurd hc (by decide)
  simp [based?, ne _ (show 0x39 < (unit 'x').toNat by decide),
    ne _ (show 0x39 < (unit 'X').toNat by decide), ne _ (show 0x39 < (unit 'o').toNat by decide),
    ne _ (show 0x39 < (unit 'O').toNat by decide), ne _ (show 0x39 < (unit 'b').toNat by decide),
    ne _ (show 0x39 < (unit 'B').toNat by decide)]

/-- A text that starts with a digit and holds only digits and points is read in decimal. -/
theorem ofText_of_digits {u : CodeUnit} {rest : Text} (hu : isDigit u)
    (h : ∀ v ∈ rest, isDigit v ∨ v = unit '.') :
    ofText (u :: rest) = (decimal? false (u :: rest)).getD nan := by
  have blank : ∀ v ∈ u :: rest, isBlank v = false := by
    intro v hv
    rcases List.mem_cons.mp hv with rfl | hv
    · exact not_isBlank_of_isDigit hu
    · rcases h v hv with hv | rfl
      · exact not_isBlank_of_isDigit hv
      · decide
  have based : based? (u :: rest) = none := by
    cases rest with
    | nil => rfl
    | cons v rest => exact based?_eq_none (h v (by simp))
  have word : u :: rest ≠ ofString "Infinity" := by
    intro e
    have hI : u = unit 'I' := (List.cons.inj e).1
    exact ne_of_isDigit hu (by decide) hI
  rw [ofText, trim_eq_self blank, splitSign_digit hu]
  simp only [List.isEmpty_cons, Bool.false_eq_true, if_false, word, based, Option.none_or]

/-- A run of units that pass a test is what `takeWhile` takes in front of one that does not. -/
theorem takeWhile_append {p : CodeUnit → Bool} {run rest : Text} (h : ∀ u ∈ run, p u)
    (hr : ∀ u ∈ rest.head?, p u = false) :
    (run ++ rest).takeWhile p = run ∧ (run ++ rest).dropWhile p = rest := by
  rw [List.takeWhile_append_of_pos h, List.dropWhile_append_of_pos h]
  cases rest with
  | nil => simp
  | cons u rest => simp [hr u rfl]

/-- **A numeral** reads as the number nearest to the natural number it denotes. -/
theorem ofText_numeral {text : Text} (h : IsNumeral text) : ofText text = ofNat (numeral text) := by
  obtain ⟨u, rest, rfl⟩ := List.exists_cons_of_ne_nil h.1
  have whole : (u :: rest).takeWhile isDigit = u :: rest := by
    simpa using (@takeWhile_append isDigit (u :: rest) [] h.2 (by simp)).1
  have read : decimal? false (u :: rest) =
      some (ofDecimal false (numeral (u :: rest)) (u :: rest).length 0) := by
    simp only [decimal?, whole, List.drop_length, List.append_nil, toNat?_numeral h, exponent?,
      Option.bind_eq_bind, Option.bind_some, List.length_nil, Int.ofNat_zero, Int.sub_zero]
  rw [ofText_of_digits (h.2 u (by simp)) fun v hv => .inl (h.2 v (by simp [hv])), read]
  simp [ofDecimal, ofNat]

/-- The number nearest to the fraction that two numerals with a point between them denote. -/
def ofFraction (whole fraction : Text) : Number :=
  .signed false (.nearest (numeral (whole ++ fraction)) (Nat.pow 10 fraction.length))

/-- **A fraction numeral** reads as the number nearest to the fraction it denotes. -/
theorem ofText_fraction {whole fraction : Text} (hw : IsNumeral whole) (hf : IsNumeral fraction) :
    ofText (whole ++ unit '.' :: fraction) = ofFraction whole fraction := by
  obtain ⟨u, rest, rfl⟩ := List.exists_cons_of_ne_nil hw.1
  have spans : (u :: rest ++ unit '.' :: fraction).takeWhile isDigit = u :: rest :=
    (takeWhile_append hw.2 (by simp; decide)).1
  have digits : fraction.takeWhile isDigit = fraction ∧ fraction.dropWhile isDigit = [] := by
    simpa using @takeWhile_append isDigit fraction [] hf.2 (by simp)
  have read : decimal? false (u :: rest ++ unit '.' :: fraction) =
      some (ofDecimal false (numeral (u :: rest ++ fraction)) (u :: rest ++ fraction).length
        (0 - fraction.length)) := by
    simp only [decimal?, spans, List.drop_left, digits, toNat?_numeral (hw.append hf), exponent?,
      if_true, Option.bind_eq_bind, Option.bind_some]
  -- no fraction numeral is long enough to be cut off
  have clamp : min (-(0 - (fraction.length : Int))).toNat
      ((u :: rest ++ fraction).length + 400) = fraction.length := by
    rw [List.length_append]; omega
  have neg : ¬ (0 : Int) ≤ 0 - (fraction.length : Int) := by
    have := List.length_pos_iff.mpr hf.1; omega
  have units : ∀ v ∈ rest ++ unit '.' :: fraction, isDigit v ∨ v = unit '.' := by
    intro v hv
    rcases List.mem_append.mp hv with hv | hv
    · exact .inl (hw.2 v (by simp [hv]))
    · rcases List.mem_cons.mp hv with rfl | hv
      · exact .inr rfl
      · exact .inl (hf.2 v hv)
  rw [List.cons_append, ofText_of_digits (hw.2 u (by simp)) units, ← List.cons_append, read,
    Option.getD_some, ofDecimal, if_neg neg, clamp, ofFraction]

end Number

end PhotoQuery
