import Mathlib.Tactic.TFAE
import PhotoQuery.Proofs.Gallery.Failure
import PhotoQuery.Proofs.Query.Blank

/-!
# Gallery — blank filters

A gallery takes a blank filter for none, and a blank source is what the scanner, the grammar and the
complaint about a source take for empty, each in a way of its own.  They all mean the same sources,
and what is valid is what compiles (`Query.blank_valid_agree`).

So the one error that only a blank source can have never reaches a gallery.  A gallery fails for its
filter or for a sort path (`Options.select_eq_error`); a filter that it compiles is not blank, and a
path is refused for what it names.
-/

namespace PhotoQuery

open Text Outcome

namespace Gallery

variable {α : Type} {photo : α → Image} {site folder : List α} {failure : Failure}
  {options : Options} {setting : Option Text}

/-- A filter counts as none exactly if it is blank. -/
theorem Options.resolve_filter_blank_iff {source : Text} :
    (Options.resolve { options with filter := some source } setting).filter = none ↔
      source.trim = [] := by
  rw [Options.resolve, Option.filter_eq_none_iff]
  simp

/-- A gallery never fails for want of an expression. -/
theorem Options.select_error_reason_ne
    (h : (options.select setting photo site folder).1 = .error failure) :
    failure.problem.reason ≠ ofString "Empty filter expression" := by
  rcases Options.select_eq_error.mp h with ⟨-, shows, refused⟩ | @⟨e, -, -⟩
  · intro empty
    exact shows (trim_eq_nil_iff.mpr (CompiledQuery.ofSource_empty_iff.mp ⟨_, refused, empty⟩))
  · exact e.cause.reason_ne_empty

end Gallery

/-! ### The statement -/

open Gallery

/-- **Blank is blank, and valid is valid.**  A source that is blank when trimmed is one without
tokens, one that is refused as empty, one that is complained about as empty, and a filter that
counts as none.  A source is valid if it compiles, and otherwise, unless it is blank, the complaint
is the diagnosis of its error in full.  So a gallery never fails for an empty filter. -/
theorem Query.blank_valid_agree :
    (∀ (source : Text) (options : Options) (setting : Option Text), List.TFAE [
      source.trim = [],
      ∃ t, tokenize source = .ok [t] ∧ t.kind = .eof,
      ∃ p, CompiledQuery.ofSource source = .error p ∧
        p.reason = ofString "Empty filter expression",
      complaint? source = some (ofString "Filter expression cannot be empty"),
      (Options.resolve { options with filter := some source } setting).filter = none]) ∧
    (∀ source : Text, (isValid source ↔ ∃ q, CompiledQuery.ofSource source = .ok q) ∧
      ∀ p, CompiledQuery.ofSource source = .error p → source.trim ≠ [] →
        ∃ d, p.diagnosis? source = some d ∧ complaint? source = some d.detail) ∧
    ∀ {α : Type} (options : Options) (setting : Option Text) (photo : α → Image)
      (site folder : List α) (failure : Failure),
      (options.select setting photo site folder).1 = .error failure →
        failure.problem.reason ≠ ofString "Empty filter expression" := by
  refine ⟨fun source options setting => ?_, fun source => ⟨isValid_iff, fun p refused shows => ?_⟩,
    fun options setting photo site folder failure => Options.select_error_reason_ne⟩
  · tfae_have 1 ↔ 2 := trim_eq_nil_iff.trans tokenize_blank_iff.symm
    tfae_have 1 ↔ 3 := trim_eq_nil_iff.trans CompiledQuery.ofSource_empty_iff.symm
    tfae_have 1 ↔ 4 := complaint?_blank_iff.symm
    tfae_have 1 ↔ 5 := Options.resolve_filter_blank_iff.symm
    tfae_finish
  · obtain ⟨d, diagnosed, -, complaint⟩ := complaint?_of_error shows refused
    exact ⟨d, diagnosed, complaint⟩

/-- A comparison without its second side is no blank source, and no filter either. -/
theorem Query.blank_valid_agree_unfinished :
    let source := ofString " iso >"
    let p : Problem := .syntactic ⟨6, .expectedExpression (ofString "end of expression")⟩
    let options : Options := { filter := some source }
    let photo (_ : Unit) : Image := ⟨[], .zero, .zero, none, none⟩
    CompiledQuery.ofSource source = .error p ∧ source.trim ≠ [] ∧
      (∃ d, p.diagnosis? source = some d ∧ complaint? source = some d.detail) ∧
      (options.select none photo [()] []).1 = .error ⟨p, source⟩ ∧
      p.reason ≠ ofString "Empty filter expression" := by
  intro source p options photo
  have refused : CompiledQuery.ofSource source = .error p := by
    have read : (CompiledQuery.ofSource source).map (fun _ => ()) = .error p := by decide +kernel
    cases h : CompiledQuery.ofSource source with
    | ok q => rw [h] at read; cases read
    | error p' => rw [h] at read; cases read; rfl
  have shows : source.trim ≠ [] := by decide
  have failed : (options.select none photo [()] []).1 = .error ⟨p, source⟩ := by decide +kernel
  exact ⟨refused, shows, (blank_valid_agree.2.1 source).2 p refused shows, failed,
    blank_valid_agree.2.2 options none photo [()] [] _ failed⟩

end PhotoQuery
