import Mathlib.Data.List.DropRight
import Mathlib.Data.List.TakeWhile
import PhotoQuery.Text.Blank

/-!
# Text — trimming

Trimming takes the blanks off both ends of a text and nothing else: every text is what trimming
leaves of it with blanks around (`Text.padded_trim`), and blanks around a text change nothing of
what trimming leaves (`Text.Padded.trim_eq`).  So trimming twice is trimming once.
-/

namespace PhotoQuery.Text

/-- The text is the core with blanks before and after it. -/
def Padded (core text : Text) : Prop :=
  ∃ before after : Text, text = before ++ core ++ after ∧ before.allBlank ∧ after.allBlank

theorem allBlank_iff {text : Text} : text.allBlank ↔ ∀ u ∈ text, isBlank u := List.all_eq_true

theorem trimEnd_eq_rdropWhile (text : Text) : text.trimEnd = text.rdropWhile isBlank := rfl

theorem trimStart_append {before : Text} (h : before.allBlank) (text : Text) :
    (before ++ text).trimStart = text.trimStart :=
  List.dropWhile_append_of_pos (allBlank_iff.mp h)

/-- Blanks at the end do not matter to trimming the end. -/
theorem trimEnd_append {after : Text} (h : after.allBlank) (text : Text) :
    (text ++ after).trimEnd = text.trimEnd := by
  have blank : ∀ u ∈ after.reverse, isBlank u := fun u hu =>
    allBlank_iff.mp h u (List.mem_reverse.mp hu)
  rw [trimEnd, List.reverse_append, List.dropWhile_append_of_pos blank, trimEnd]

/-- Blanks around a text change nothing of what trimming leaves of it. -/
theorem Padded.trim_eq {core text : Text} (h : Padded core text) : text.trim = core.trim := by
  obtain ⟨before, after, rfl, hb, ha⟩ := h
  rw [trim, List.append_assoc, trimStart_append hb, trimStart, List.dropWhile_append]
  split
  next blank =>
    -- of a blank core nothing is left, with or without blanks behind it
    have nothing : after.dropWhile isBlank = [] :=
      List.dropWhile_eq_nil_iff.mpr (allBlank_iff.mp ha)
    rw [nothing, trim, trimStart, List.isEmpty_iff.mp blank]
  next => exact trimEnd_append ha _

/-- A text is what trimming leaves of it, with blanks around. -/
theorem padded_trim (text : Text) : Padded text.trim text := by
  refine ⟨text.takeWhile isBlank, text.trimStart.rtakeWhile isBlank, ?_, ?_, ?_⟩
  · rw [List.append_assoc, trim, trimEnd_eq_rdropWhile, List.rdropWhile_append_rtakeWhile,
      trimStart, List.takeWhile_append_dropWhile]
  · exact allBlank_iff.mpr fun u => List.mem_takeWhile_imp
  · exact allBlank_iff.mpr fun u => List.mem_rtakeWhile_imp

@[simp] theorem trim_trim (text : Text) : text.trim.trim = text.trim :=
  (padded_trim text).trim_eq.symm

theorem Padded.mem {core text : Text} (h : Padded core text) {u : CodeUnit} (hu : u ∈ core) :
    u ∈ text := by
  obtain ⟨before, after, rfl, -, -⟩ := h
  exact List.mem_append_left _ (List.mem_append_right _ hu)

/-- A unit of a padded text is one of the core or blank. -/
theorem Padded.mem_or_blank {core text : Text} (h : Padded core text) {u : CodeUnit}
    (hu : u ∈ text) : u ∈ core ∨ isBlank u := by
  obtain ⟨before, after, rfl, hb, ha⟩ := h
  rcases List.mem_append.mp hu with hu | hu
  · rcases List.mem_append.mp hu with hu | hu
    · exact .inr (allBlank_iff.mp hb u hu)
    · exact .inl hu
  · exact .inr (allBlank_iff.mp ha u hu)

theorem mem_of_mem_trim {text : Text} {u : CodeUnit} (h : u ∈ text.trim) : u ∈ text :=
  (padded_trim text).mem h

end PhotoQuery.Text
