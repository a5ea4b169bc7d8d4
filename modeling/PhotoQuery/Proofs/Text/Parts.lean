import PhotoQuery.Text.Case

/-!
# Text — small letters of a part

The small letters of a text are, point by point, those of its parts, with one exception: whether a
capital sigma becomes a final one depends on what stands around it.  A part that is cut out of a
text has other neighbours, so a sigma in it may become another letter.

`Text.KeepsSigmas` says of a part that no sigma in it does.  Where the part is cut out between code
points (`Text.Whole`), its small letters stand in those of the text, at the same place, if and only
if it keeps its sigmas (`Text.exists_lower_between`).  A part without a capital sigma always does.
-/

namespace PhotoQuery.Text

/-! ### Code points of parts -/

/-- A surrogate pair reaches from the end of the first text into the second. -/
def splitsPair (before after : Text) : Bool :=
  before.getLast?.any isHighSurrogate && after.head?.any isLowSurrogate

/-- The text between the two others is cut out of the whole between code points. -/
structure Whole (before part after : Text) : Prop where
  start : splitsPair before part = false
  stop : splitsPair part after = false

/-- A text that is cut between code points has the code points of its parts. -/
theorem points_append {a b : Text} (h : splitsPair a b = false) :
    points (a ++ b) = points a ++ points b := by
  fun_induction points a with
  | case1 => rfl
  | case2 u =>
    cases b with
    | nil => rfl
    | cons v rest =>
      have apart : (isHighSurrogate u && isLowSurrogate v) = false := h
      simp [points, apart]
  | case3 u v rest pair ih =>
    rw [Bool.and_eq_true] at pair
    have rest_splits : splitsPair rest b = false := by
      cases rest with
      | nil => rfl
      | cons w rest => exact h
    simp [points, pair, ih rest_splits]
  | case4 u v rest apart ih =>
    simp only [List.cons_append] at ih ⊢
    rw [points, if_neg apart, ih h]

/-- Whether a cut splits a pair depends on the nearest units only. -/
theorem splitsPair_append_left {part : Text} (before after : Text) (h : part ≠ []) :
    splitsPair (before ++ part) after = splitsPair part after := by
  obtain ⟨u, last⟩ := Option.isSome_iff_exists.mp (List.getLast?_isSome.mpr h)
  rw [splitsPair, splitsPair, List.getLast?_append, last, Option.some_or]

/-- The code points of a text from which a part is cut out whole. -/
theorem Whole.points_eq {before part after : Text} (h : Whole before part after) (hp : part ≠ []) :
    points (before ++ part ++ after) = points before ++ points part ++ points after := by
  rw [points_append (by rw [splitsPair_append_left before after hp]; exact h.stop),
    points_append h.start]

theorem ofPoints_append (ps qs : List Nat) : ofPoints (ps ++ qs) = ofPoints ps ++ ofPoints qs :=
  List.flatMap_append

/-! ### Small letters of parts -/

/-- The small form of a point between others.  Those before come nearest first. -/
def lowerAt (before after : List Nat) (p : Nat) : List Nat :=
  if p = 0x3A3 then [if isFinalSigma before after then 0x3C2 else 0x3C3] else lowerPoint p

/-- The small forms of points that stand between others.  Those before come nearest first. -/
def lowerBetween (before after : List Nat) : List Nat → List Nat
  | [] => []
  | p :: rest => lowerAt before (rest ++ after) p ++ lowerBetween (p :: before) after rest

theorem lowerPoints_cons (before : List Nat) (p : Nat) (rest : List Nat) :
    lowerPoints before (p :: rest) = lowerAt before rest p ++ lowerPoints (p :: before) rest := rfl

/-- The small forms of points are those of their parts, each between the others. -/
theorem lowerPoints_append (before ps qs : List Nat) :
    lowerPoints before (ps ++ qs) =
      lowerBetween before qs ps ++ lowerPoints (ps.reverse ++ before) qs := by
  induction ps generalizing before with
  | nil => rfl
  | cons p rest ih =>
    rw [List.cons_append, lowerPoints_cons, ih, lowerBetween, List.reverse_cons, List.append_assoc,
      List.append_assoc, List.singleton_append]

/-- A sigma takes one unit in either small form. -/
theorem length_lowerAt (before after before' after' : List Nat) (p : Nat) :
    (ofPoints (lowerAt before after p)).length = (ofPoints (lowerAt before' after' p)).length := by
  unfold lowerAt
  split
  next => split <;> split <;> rfl
  next => rfl

/-- The small forms of points take as many units wherever they stand. -/
theorem length_lowerBetween (before after before' : List Nat) (ps : List Nat) :
    (ofPoints (lowerBetween before after ps)).length =
      (ofPoints (lowerPoints before' ps)).length := by
  induction ps generalizing before before' with
  | nil => rfl
  | cons p rest ih =>
    rw [lowerBetween, lowerPoints_cons, ofPoints_append, ofPoints_append, List.length_append,
      List.length_append, ih (p :: before) (p :: before'),
      length_lowerAt before (rest ++ after) before' rest]

/-- Only the small form of a sigma depends on its neighbours. -/
theorem lowerAt_eq_iff {before after before' after' : List Nat} {p : Nat} :
    ofPoints (lowerAt before after p) = ofPoints (lowerAt before' after' p) ↔
      (p = 0x3A3 → isFinalSigma before after = isFinalSigma before' after') := by
  unfold lowerAt
  by_cases sigma : p = 0x3A3
  · simp only [sigma, if_true, forall_const]
    cases isFinalSigma before after <;> cases isFinalSigma before' after' <;> decide
  · simp [sigma]

/-- More neighbours leave the small forms of points as they are if they leave every sigma final that
is, and none that is not. -/
theorem lowerBetween_eq_iff (before outer after ps : List Nat) :
    ofPoints (lowerBetween (before ++ outer) after ps) = ofPoints (lowerPoints before ps) ↔
      ∀ u v, ps = u ++ 0x3A3 :: v →
        isFinalSigma (u.reverse ++ (before ++ outer)) (v ++ after) =
          isFinalSigma (u.reverse ++ before) v := by
  induction ps generalizing before with
  | nil => simp [lowerBetween, lowerPoints]
  | cons p rest ih =>
    have heads := length_lowerAt (before ++ outer) (rest ++ after) before rest p
    -- the small forms of the first point take as many units, so the texts agree part by part
    have parts {s t : Text} :
        ofPoints (lowerAt (before ++ outer) (rest ++ after) p) ++ s =
            ofPoints (lowerAt before rest p) ++ t ↔
          ofPoints (lowerAt (before ++ outer) (rest ++ after) p) =
            ofPoints (lowerAt before rest p) ∧ s = t :=
      ⟨fun h => List.append_inj h heads, fun h => by rw [h.1, h.2]⟩
    rw [lowerBetween, lowerPoints_cons, ofPoints_append, ofPoints_append, parts, lowerAt_eq_iff,
      ← List.cons_append, ih]
    constructor
    · rintro ⟨head, tail⟩ u v split
      cases u with
      | nil =>
        obtain ⟨rfl, rfl⟩ := List.cons.inj split
        exact head rfl
      | cons q u =>
        obtain ⟨rfl, others⟩ := List.cons.inj split
        simpa using tail u v others
    · intro kept
      refine ⟨?_, fun u v split => ?_⟩
      · rintro rfl
        exact kept [] rest rfl
      · simpa using kept (p :: u) v (congrArg (p :: ·) split)

/-! ### Sigmas -/

/-- A capital sigma of the part is at the end of a word between the two texts if and only if it is
in the part alone. -/
def KeepsSigmas (before part after : Text) : Prop :=
  ∀ u v, part.points = u ++ 0x3A3 :: v →
    isFinalSigma (u.reverse ++ before.points.reverse) (v ++ after.points) = isFinalSigma u.reverse v

/-- A part keeps its sigmas if its small forms between the two texts are those that it has alone. -/
theorem keepsSigmas_iff {before part after : Text} :
    KeepsSigmas before part after ↔
      ofPoints (lowerBetween before.points.reverse after.points part.points) = part.lower := by
  have outer := lowerBetween_eq_iff [] before.points.reverse after.points part.points
  simp only [List.nil_append, List.append_nil] at outer
  exact outer.symm

instance (before part after : Text) : Decidable (KeepsSigmas before part after) :=
  decidable_of_iff' _ keepsSigmas_iff

/-- A part without a capital sigma keeps its sigmas. -/
theorem keepsSigmas_of_not_mem {part : Text} (before after : Text) (h : 0x3A3 ∉ part.points) :
    KeepsSigmas before part after := by
  intro u v split
  rw [split] at h
  exact absurd (List.mem_append_right u List.mem_cons_self) h

/-- **The small letters of a part** that is cut out whole stand in those of the text at its place,
but for its sigmas: what stands there has the length of the small letters of the part, and it is
these if and only if the part keeps its sigmas. -/
theorem exists_lower_between {before part after : Text} (whole : Whole before part after)
    (hp : part ≠ []) :
    ∃ left middle right, (before ++ part ++ after).lower = left ++ middle ++ right ∧
      (before = [] → left = []) ∧ (after = [] → right = []) ∧
      middle.length = part.lower.length ∧
      (middle = part.lower ↔ KeepsSigmas before part after) := by
  refine ⟨ofPoints (lowerBetween [] (part.points ++ after.points) before.points),
    ofPoints (lowerBetween before.points.reverse after.points part.points),
    ofPoints (lowerPoints (part.points.reverse ++ before.points.reverse) after.points),
    ?_, ?_, ?_, length_lowerBetween _ _ _ _, keepsSigmas_iff.symm⟩
  · rw [lower, whole.points_eq hp, List.append_assoc, lowerPoints_append, lowerPoints_append,
      ofPoints_append, ofPoints_append, List.append_nil, List.append_assoc]
  · rintro rfl
    rfl
  · rintro rfl
    rfl

end PhotoQuery.Text
