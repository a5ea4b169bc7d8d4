import Mathlib.Data.List.TakeWhile
import PhotoQuery.Diagnosis

/-!
# Diagnosis — what a caret points at

`Text.IsLine` says which line of a source a position is in without searching for it: the widest
stretch around the position in which no newline stands, so that a newline is the end of the line
that it closes.  A diagnosis shows this line, and puts a caret under the unit at the position
(`Diagnosis.pointer_points`).

The line is edited before it is shown, but no unit of it moves: a tab becomes one space, and only
its last unit can be left out.  So the unit above the caret is the one at the position, unless it is
the end of the line.
-/

namespace PhotoQuery

/-! ### Lines of a source -/

namespace Text

variable {source : Text} {position start stop : Nat}

/-- The units from `start` to `stop` stand around the position, with no newline among them. -/
structure Stretch (source : Text) (position start stop : Nat) : Prop where
  start_le : start ≤ position
  le_stop : position ≤ stop
  stop_le : stop ≤ source.length
  newlineFree : ∀ i, start ≤ i → i < stop → source[i]? ≠ some (unit '\n')

/-- The units from `start` to `stop` are the line that the position is in: no stretch around the
position is wider. -/
structure IsLine (source : Text) (position start stop : Nat) : Prop extends
    Stretch source position start stop where
  widest : ∀ start' stop', Stretch source position start' stop' → start ≤ start' ∧ stop' ≤ stop

/-- A stretch between newlines, or between them and the ends of the source, is a line. -/
theorem Stretch.isLine (h : Stretch source position start stop)
    (opens : start = 0 ∨ source[start - 1]? = some (unit '\n'))
    (closes : stop = source.length ∨ source[stop]? = some (unit '\n')) :
    IsLine source position start stop := by
  refine ⟨h, fun start' stop' other => ⟨?_, ?_⟩⟩
  · rcases opens with rfl | newline
    · exact Nat.zero_le _
    · by_contra wider
      have := h.start_le
      have := other.le_stop
      exact other.newlineFree (start - 1) (by omega) (by omega) newline
  · rcases closes with rfl | newline
    · exact other.stop_le
    · by_contra wider
      exact other.newlineFree stop (Nat.le_trans other.start_le h.le_stop) (by omega) newline

end Text

namespace Diagnosis

open Text

variable {d : Diagnosis}

/-! ### Shown lines -/

/-- A unit as it is shown: a tab is one space. -/
def spaced (u : CodeUnit) : CodeUnit := if u = unit '\t' then unit ' ' else u

/-- The line is shown as the text: without one carriage return at its end, and with its tabs as
spaces. -/
inductive Shows : Text → Text → Prop where
  | returned (line : Text) : Shows (line ++ [unit '\r']) (line.map spaced)
  | plain {line : Text} (h : line.getLast? ≠ some (unit '\r')) : Shows line (line.map spaced)

/-- What a diagnosis makes of a line shows it. -/
theorem shows_dropReturn (line : Text) : Shows line ((dropReturn line).map spaced) := by
  unfold dropReturn
  split
  next last =>
    obtain ⟨body, rfl⟩ := List.getLast?_eq_some_iff.mp last
    rw [List.dropLast_concat]
    exact .returned body
  next other => exact .plain other

theorem spaced_ne_newline {u : CodeUnit} (h : u ≠ unit '\n') : spaced u ≠ unit '\n' := by
  unfold spaced
  split
  · decide
  · exact h

namespace Shows

variable {full text : Text}

theorem newline_not_mem (h : Shows full text) (free : unit '\n' ∉ full) : unit '\n' ∉ text := by
  have spacedFree : ∀ {l : Text}, unit '\n' ∉ l → unit '\n' ∉ l.map spaced := by
    intro l hl mem
    obtain ⟨u, hu, same⟩ := List.mem_map.mp mem
    exact spaced_ne_newline (fun newline => hl (newline ▸ hu)) same
  cases h with
  | returned line => exact spacedFree fun mem => free (List.mem_append_left _ mem)
  | plain => exact spacedFree free

/-- Every unit of a line is shown in its place, but for a carriage return at the end. -/
theorem getElem? (h : Shows full text) {i : Nat} {u : CodeUnit} (at_i : full[i]? = some u)
    (kept : u = unit '\r' → i + 1 ≠ full.length) : text[i]? = some (spaced u) := by
  cases h with
  | returned line =>
    have inside : i < (line ++ [unit '\r']).length := (List.getElem?_eq_some_iff.mp at_i).1
    rw [List.length_append, List.length_singleton] at inside kept
    rcases Nat.lt_succ_iff_lt_or_eq.mp inside with before | rfl
    · rw [List.getElem?_append_left before] at at_i
      rw [List.getElem?_map, at_i, Option.map_some]
    · rw [List.getElem?_concat_length] at at_i
      exact absurd rfl (kept (Option.some.inj at_i).symm)
  | plain => rw [List.getElem?_map, at_i, Option.map_some]

end Shows

/-! ### The line of a diagnosis -/

/-- The source in front of the line, the line before and behind the position, and the source behind
it. -/
theorem exists_split (d : Diagnosis) : ∃ front back,
    d.source = front ++ (d.lineBefore ++ d.lineAfter) ++ back ∧
      d.source.take d.position = front ++ d.lineBefore ∧
      (∀ u ∈ front.getLast?, u = unit '\n') ∧ ∀ u ∈ back.head?, u = unit '\n' := by
  let q : CodeUnit → Bool := (· ≠ unit '\n')
  have first {l : Text} : ∀ u ∈ (l.dropWhile q).head?, u = unit '\n' := by
    intro u hu
    have stopped := List.head?_dropWhile_not q l
    rw [Option.mem_def.mp hu] at stopped
    simpa [q] using stopped
  have before : d.source.take d.position =
      ((d.source.take d.position).reverse.dropWhile q).reverse ++ d.lineBefore := by
    rw [lineBefore, ← List.reverse_append, List.takeWhile_append_dropWhile, List.reverse_reverse]
  have after : d.source.drop d.position = d.lineAfter ++ (d.source.drop d.position).dropWhile q :=
    List.takeWhile_append_dropWhile.symm
  refine ⟨_, (d.source.drop d.position).dropWhile q, ?_, before, ?_, first⟩
  · rw [← List.append_assoc, ← before, List.append_assoc, ← after, List.take_append_drop]
  · rw [List.getLast?_reverse]
    exact first

/-- The line of a diagnosis has no newline in it. -/
theorem newline_not_mem_line (d : Diagnosis) : unit '\n' ∉ d.lineBefore ++ d.lineAfter := by
  intro mem
  rcases List.mem_append.mp mem with mem | mem
  · simpa using List.mem_takeWhile_imp (List.mem_reverse.mp mem)
  · simpa using List.mem_takeWhile_imp mem

/-- The line of a diagnosis, by its offsets in the source. -/
theorem exists_isLine (inside : d.position ≤ d.source.length) :
    ∃ start, start + d.lineBefore.length = d.position ∧
      IsLine d.source d.position start (d.position + d.lineAfter.length) ∧
      d.source.extract start (d.position + d.lineAfter.length) = d.lineBefore ++ d.lineAfter := by
  obtain ⟨front, back, whole, taken, opens, closes⟩ := d.exists_split
  have position : front.length + d.lineBefore.length = d.position := by
    rw [← List.length_append, ← taken, List.length_take, Nat.min_eq_left inside]
  have length : d.source.length = d.position + d.lineAfter.length + back.length := by
    rw [whole, ← position]
    simp only [List.length_append, Nat.add_assoc]
  have stop : front.length + (d.lineBefore ++ d.lineAfter).length =
      d.position + d.lineAfter.length := by
    rw [List.length_append, ← Nat.add_assoc, position]
  refine ⟨front.length, position, Stretch.isLine ⟨by omega, by omega, by omega, ?_⟩ ?_ ?_, ?_⟩
  · intro i le lt newline
    rw [whole, List.append_assoc, List.getElem?_append_right le,
      List.getElem?_append_left (by omega)] at newline
    exact d.newline_not_mem_line (List.mem_of_getElem? newline)
  -- the line is opened by a newline, or by the start of the source
  · cases last : front.getLast? with
    | none => exact .inl (by rw [List.getLast?_eq_none_iff.mp last]; rfl)
    | some u =>
      obtain rfl := opens u last
      obtain ⟨before, rfl⟩ := List.getLast?_eq_some_iff.mp last
      refine .inr ?_
      rw [whole, List.append_assoc, List.length_append, List.length_singleton, Nat.add_sub_cancel,
        List.getElem?_append_left (by simp), List.getElem?_concat_length]
  -- it is closed by a newline, or by the end of the source
  · cases back with
    | nil => exact .inl (by rw [length]; rfl)
    | cons u rest =>
      obtain rfl := closes u rfl
      refine .inr ?_
      rw [whole, ← stop, ← List.length_append, List.getElem?_append_right (Nat.le_refl _),
        Nat.sub_self]
      rfl
  · rw [List.extract_eq_take_drop, whole, List.append_assoc, List.drop_left, ← stop,
      Nat.add_sub_cancel_left, List.take_left]

/-- The unit at the position, unless it ends the line, is the first of the line behind it. -/
theorem getElem?_zero_lineAfter {u : CodeUnit} (found : d.source[d.position]? = some u)
    (notNewline : u ≠ unit '\n') : d.lineAfter[0]? = some u := by
  have first : (d.source.drop d.position)[0]? = some u := by
    rw [List.getElem?_drop, Nat.add_zero, found]
  rw [lineAfter]
  cases behind : d.source.drop d.position with
  | nil => rw [behind] at first; cases first
  | cons v rest =>
    rw [behind] at first
    cases first
    rw [List.takeWhile_cons_of_pos (by simpa using notNewline)]
    rfl

/-! ### The statement -/

/-- The diagnosis shows the text and, under it, the caret.  The text is the line from `start` to
`stop`, which the position is in, and the caret stands under the unit at the position. -/
structure Points (d : Diagnosis) (start stop : Nat) (text caret : Text) : Prop where
  line : IsLine d.source d.position start stop
  shows : Shows (d.source.extract start stop) text
  caret_eq : caret = List.replicate (d.position - start) (unit ' ') ++ [unit '^']
  newlineFree : unit '\n' ∉ text
  pointer_eq : d.pointer = text ++ unit '\n' :: caret
  above : ∀ u, d.source[d.position]? = some u → u ≠ unit '\n' →
    (u = unit '\r' → d.position + 1 ≠ stop) → text[d.position - start]? = some (spaced u)
  detail : d.source ≠ [] →
    unit '\n' :: ofString "  " ++ text ++ unit '\n' :: ofString "  " ++ caret <:+ d.detail

/-- **The caret points at the position.**  A diagnosis in its source, or at the end of it, shows the
line that the position is in and a caret in the column of the position; and so does the message in
full, two spaces further to the right, unless the source is empty. -/
theorem pointer_points (inside : d.position ≤ d.source.length) :
    ∃ start stop text caret, d.Points start stop text caret := by
  obtain ⟨start, before, line, extracted⟩ := exists_isLine inside
  have shown : Shows (d.lineBefore ++ d.lineAfter) d.line := shows_dropReturn _
  have column : d.column = d.position - start := by
    rw [Diagnosis.column, List.length_take, Nat.min_eq_left inside]
    omega
  have width : d.position - start = d.lineBefore.length := by omega
  refine ⟨start, _, d.line, d.caret, line, extracted ▸ shown, by rw [caret, column],
    shown.newline_not_mem d.newline_not_mem_line, rfl, ?_, ?_⟩
  · intro u found notNewline kept
    rw [width]
    refine shown.getElem? ?_ fun isReturn => ?_
    · rw [List.getElem?_append_right (Nat.le_refl _), Nat.sub_self,
        getElem?_zero_lineAfter found notNewline]
    · have := kept isReturn
      rw [List.length_append]
      omega
  · intro nonempty
    refine ⟨ofString "Filter error: " ++ d.message ++ [unit '\n'], ?_⟩
    have breaks : ofString "\n\n  " = [unit '\n'] ++ unit '\n' :: ofString "  " := by decide
    have break' : ofString "\n  " = unit '\n' :: ofString "  " := by decide
    rw [detail, if_neg (by simpa using nonempty), breaks, break']
    simp only [List.append_assoc, List.cons_append]

/-- A sign behind a tab, on the second of two lines that carriage returns end. -/
theorem pointer_points_tab :
    let d : Diagnosis := ⟨.syntactic, ofString "Expected expression, got '>'", 14,
      ofString "iso == 5\r\n\tor >\r\n"⟩
    d.position ≤ d.source.length ∧ d.pointer = ofString " or >\n    ^" ∧
      ∃ start stop text caret, d.Points start stop text caret := by
  intro d
  have inside : d.position ≤ d.source.length := by decide
  exact ⟨inside, by decide, pointer_points inside⟩

end Diagnosis

end PhotoQuery
