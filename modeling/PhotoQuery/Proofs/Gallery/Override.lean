import PhotoQuery.Proofs.Gallery.Agreement
import PhotoQuery.Proofs.Text.Trim
import PhotoQuery.Proofs.Token.Recasing

/-!
# Gallery — sort overrides

A sort override is blank, a field, or a field and a direction with a colon between them
(`OverrideForm`), and there is one equation for each of the three.  Whatever blanks stand around the
field and the direction, and in whatever case the direction is, `field:direction` puts the two into
the configuration.  No text at all can do more than that: the fallback stays, a part that cannot be
read stays as it was configured, and a second time changes nothing (`SortConfig.override_laws`).
-/

namespace PhotoQuery.Gallery

open Text

/-! ### Forms of overrides -/

/-- The three forms of an override.  A text is cut at its first colon. -/
inductive OverrideForm : Text → Prop where
  | blank {text : Text} (blank : text.trim = []) (colonless : unit ':' ∉ text) : OverrideForm text
  | field {text : Text} (shows : text.trim ≠ []) (colonless : unit ':' ∉ text) : OverrideForm text
  | pair {before after : Text} (colonless : unit ':' ∉ before) :
      OverrideForm (before ++ unit ':' :: after)

/-- Every text has one of the three forms. -/
theorem overrideForm (text : Text) : OverrideForm text := by
  by_cases colon : unit ':' ∈ text
  · obtain ⟨before, after, rfl, colonless⟩ := List.eq_append_cons_of_mem colon
    exact .pair colonless
  · by_cases blank : text.trim = []
    · exact .blank blank colon
    · exact .field blank colon

theorem splitAtColon?_of_colonless {text : Text} (h : unit ':' ∉ text) :
    splitAtColon? text = none := by
  induction text with
  | nil => rfl
  | cons u text ih =>
    rw [List.mem_cons, not_or] at h
    rw [splitAtColon?, if_neg (Ne.symm h.1), ih h.2, Option.map_none]

theorem splitAtColon?_pair {before : Text} (colonless : unit ':' ∉ before) (after : Text) :
    splitAtColon? (before ++ unit ':' :: after) = some (before, after) :=
  splitAtColon?_append (fun _ hu => ne_of_mem_of_not_mem hu colonless) after

/-- No colon comes from blanks. -/
theorem colonless_of_padded {core text : Text} (h : Padded core text)
    (colonless : unit ':' ∉ core) :
    unit ':' ∉ text := by
  intro colon
  rcases h.mem_or_blank colon with colon | blank
  · exact colonless colon
  · revert blank
    decide

namespace SortConfig

variable {config : SortConfig} {text before after : Text}

theorem override_blank (blank : text.trim = []) : config.override text = config := by
  rw [override, blank]
  rfl

/-- An override without a colon is a field. -/
theorem override_field (shows : text.trim ≠ []) (colonless : unit ':' ∉ text) :
    config.override text = { config with field := text.trim } := by
  rw [override, if_neg (by simpa using shows), splitAtColon?_of_colonless colonless]

/-- The field that the text before a colon asks for; a blank one asks for none. -/
def fieldOr (config : SortConfig) (before : Text) : Text :=
  if before.trim.isEmpty then config.field else before.trim

/-- An override with a colon is a field in front of it and a direction behind it, where these can be
read. -/
theorem override_pair (colonless : unit ':' ∉ before) :
    config.override (before ++ unit ':' :: after) =
      ⟨config.fieldOr before, (direction? after).getD config.direction, config.fallback⟩ := by
  have shows : (before ++ unit ':' :: after).trim ≠ [] := by
    intro blank
    have padded := padded_trim (before ++ unit ':' :: after)
    rw [blank] at padded
    exact colonless_of_padded padded List.not_mem_nil (by simp)
  rw [override, if_neg (by simpa using shows), splitAtColon?_pair colonless]
  rfl

/-- The field is the configured one, or what is in front of the colon if that is not blank. -/
theorem fieldOr_eq (config : SortConfig) (before : Text) :
    config.fieldOr before = config.field ∨
      config.fieldOr before ≠ [] ∧ config.fieldOr before = before.trim := by
  unfold fieldOr
  split
  next => exact .inl rfl
  next shows => exact .inr ⟨by simpa using shows, rfl⟩

end SortConfig

/-! ### Directions -/

/-- A text names a direction if it is the direction's word, trimmed and in small letters. -/
theorem direction?_eq_some {text : Text} {d : Direction} :
    direction? text = some d ↔ text.trim.lower = ofString d.word := by
  have distinct : ofString "desc" ≠ ofString "asc" := by decide
  unfold direction?
  cases d with
  | ascending =>
    dsimp only [Direction.word]
    split
    next asc => simp [asc]
    next other => split <;> simp [other]
  | descending =>
    dsimp only [Direction.word]
    split
    next asc => simp [asc, distinct.symm]
    next => split <;> simp [*]

/-- The word of a direction, in any case and with blanks around it, names the direction. -/
theorem direction?_of_padded {word text : Text} {d : Direction}
    (letters : SameLetters word (ofString d.word)) (padded : Padded word text) :
    direction? text = some d := by
  have spelled : (ofString d.word).all isLetter ∧ (ofString d.word).lower = ofString d.word := by
    cases d <;> decide
  have letter : ∀ u ∈ ofString d.word, isLetter u := List.all_eq_true.mp spelled.1
  have letter' : ∀ u ∈ word, isLetter u := letters.symm.forall_mem isLetter_smallUnit letter
  have solid : ∀ u ∈ word, isBlank u = false := fun u hu => by
    rw [Bool.eq_false_iff]
    intro blank
    simpa [not_isLetter_of_isBlank blank] using letter' u hu
  have ascii : ∀ {w : Text}, (∀ u ∈ w, isLetter u) → w.IsAscii := fun h u hu => by
    have := isLetter_iff.mp (h u hu)
    omega
  rw [direction?_eq_some, padded.trim_eq, trim_eq_self solid,
    letters.lower_eq (ascii letter') (ascii letter), spelled.2]

/-- The text behind the first colon of an override names the direction. -/
def NamesDirection (text : Text) (d : Direction) : Prop :=
  ∃ before after : Text, text = before ++ unit ':' :: after ∧ unit ':' ∉ before ∧
    after.trim.lower = ofString d.word

/-- There is one first colon, so what is behind it decides. -/
theorem namesDirection_pair {before after : Text} (colonless : unit ':' ∉ before) {d : Direction} :
    NamesDirection (before ++ unit ':' :: after) d ↔ direction? after = some d := by
  rw [direction?_eq_some]
  constructor
  · rintro ⟨before', after', same, colonless', named⟩
    have cut := splitAtColon?_pair colonless after
    rw [same, splitAtColon?_pair colonless' after'] at cut
    cases cut
    exact named
  · exact fun named => ⟨before, after, rfl, colonless, named⟩

theorem not_namesDirection {text : Text} (colonless : unit ':' ∉ text) (d : Direction) :
    ¬ NamesDirection text d := by
  rintro ⟨before, after, rfl, -, -⟩
  exact colonless (by simp)

/-! ### What an override can do -/

namespace SortConfig

/-- `field:direction`, with blanks around both and the direction in any case, is what it says. -/
theorem override_padded (config : SortConfig) {field word left right : Text} {d : Direction}
    (trimmed : field.trim = field) (nonempty : field ≠ []) (colonless : unit ':' ∉ field)
    (letters : SameLetters word (ofString d.word)) (hl : Padded field left)
    (hr : Padded word right) :
    config.override (left ++ unit ':' :: right) = ⟨field, d, config.fallback⟩ := by
  have before : unit ':' ∉ left := colonless_of_padded hl colonless
  have shows : ¬ field.isEmpty := by simpa using nonempty
  rw [override_pair before, fieldOr, hl.trim_eq, trimmed, if_neg shows,
    direction?_of_padded letters hr, Option.getD_some]

/-- No override changes the fallback. -/
theorem override_fallback (config : SortConfig) (text : Text) :
    (config.override text).fallback = config.fallback := by
  cases overrideForm text with
  | blank blank _ => rw [override_blank blank]
  | field shows colonless => rw [override_field shows colonless]
  | pair colonless => rw [override_pair colonless]

/-- The field is the configured one, or a trimmed and non-empty text without a colon. -/
theorem override_field_cases (config : SortConfig) (text : Text) :
    let field := (config.override text).field
    field = config.field ∨ field ≠ [] ∧ field.trim = field ∧ unit ':' ∉ field := by
  cases overrideForm text with
  | blank blank _ => exact .inl (by rw [override_blank blank])
  | field shows colonless =>
    rw [override_field shows colonless]
    exact .inr ⟨shows, trim_trim text, fun colon => colonless (mem_of_mem_trim colon)⟩
  | @pair before after colonless =>
    rw [override_pair colonless]
    refine (config.fieldOr_eq before).imp id fun ⟨nonempty, trimmed⟩ => ⟨nonempty, ?_, ?_⟩
    · dsimp only
      rw [trimmed, trim_trim]
    · dsimp only
      rw [trimmed]
      exact fun colon => colonless (mem_of_mem_trim colon)

/-- The direction is the one that is named behind the first colon, or else the configured one. -/
theorem override_direction (config : SortConfig) (text : Text) :
    (∀ d, NamesDirection text d → (config.override text).direction = d) ∧
      ((∀ d, ¬ NamesDirection text d) → (config.override text).direction = config.direction) := by
  cases overrideForm text with
  | blank blank colonless =>
    rw [override_blank blank]
    exact ⟨fun d named => absurd named (not_namesDirection colonless d), fun _ => rfl⟩
  | field shows colonless =>
    rw [override_field shows colonless]
    exact ⟨fun d named => absurd named (not_namesDirection colonless d), fun _ => rfl⟩
  | @pair before after colonless =>
    simp only [override_pair colonless, namesDirection_pair colonless]
    refine ⟨fun d named => by rw [named, Option.getD_some], fun none => ?_⟩
    rw [Option.eq_none_iff_forall_ne_some.mpr none, Option.getD_none]

/-- An override changes nothing a second time. -/
theorem override_override (config : SortConfig) (text : Text) :
    (config.override text).override text = config.override text := by
  cases overrideForm text with
  | blank blank _ => rw [override_blank blank, override_blank blank]
  | field shows colonless =>
    rw [override_field shows colonless, override_field shows colonless]
  | @pair before after colonless =>
    have field : ∀ d fallback,
        fieldOr ⟨config.fieldOr before, d, fallback⟩ before = config.fieldOr before := by
      intro d fallback
      unfold fieldOr
      split <;> rfl
    have direction : (direction? after).getD ((direction? after).getD config.direction) =
        (direction? after).getD config.direction := by
      cases direction? after <;> rfl
    rw [override_pair colonless, override_pair colonless, field, direction]

/-- **An override says what it is written for, and no text says more.**  A trimmed field without a
colon, a colon and a direction in any case, with any blanks around the two, put the field and the
direction into a configuration.  Whatever the text, the fallback stays; the field is the configured
one or a trimmed, non-empty text without a colon; the direction is the one named behind the first
colon, and the configured one if none is; and the same override changes nothing a second time. -/
theorem override_laws (config : SortConfig) :
    (∀ (field word left right : Text) (d : Direction), field.trim = field → field ≠ [] →
      unit ':' ∉ field → SameLetters word (ofString d.word) → Padded field left →
      Padded word right →
      config.override (left ++ unit ':' :: right) = ⟨field, d, config.fallback⟩) ∧
    ∀ text : Text,
      (config.override text).fallback = config.fallback ∧
      ((config.override text).field = config.field ∨
        (config.override text).field ≠ [] ∧
          (config.override text).field.trim = (config.override text).field ∧
          unit ':' ∉ (config.override text).field) ∧
      (∀ d, NamesDirection text d → (config.override text).direction = d) ∧
      ((∀ d, ¬ NamesDirection text d) → (config.override text).direction = config.direction) ∧
      (config.override text).override text = config.override text := by
  refine ⟨fun field word left right d trimmed nonempty colonless letters hl hr => ?_,
    fun text => ?_⟩
  · exact override_padded config trimmed nonempty colonless letters hl hr
  · obtain ⟨named, unnamed⟩ := override_direction config text
    exact ⟨override_fallback config text, override_field_cases config text, named, unnamed,
      override_override config text⟩

/-- A padded override that shouts its direction, and one with two colons, which names none. -/
theorem override_laws_shouted :
    let field := ofString "exif.ISO"
    let left := ofString "\t exif.ISO "
    let right := ofString " DeSC\n"
    let twice := ofString "exif.ISO:desc:"
    field.trim = field ∧ field ≠ [] ∧ unit ':' ∉ field ∧
      SameLetters (ofString "DeSC") (ofString Direction.descending.word) ∧
      Padded field left ∧ Padded (ofString "DeSC") right ∧
      standard.override (left ++ unit ':' :: right) = ⟨field, .descending, ofString "filename"⟩ ∧
      (∀ d, ¬ NamesDirection twice d) ∧
      ((⟨field, .ascending, []⟩ : SortConfig).override twice).direction = .ascending := by
  intro field left right twice
  have hl : Padded field left := ⟨ofString "\t ", ofString " ", by decide⟩
  have hr : Padded (ofString "DeSC") right := ⟨ofString " ", ofString "\n", by decide⟩
  have unnamed : ∀ d, ¬ NamesDirection twice d := by
    have colonless : unit ':' ∉ field := by decide
    intro d named
    have read : direction? (ofString "desc:") = some d := (namesDirection_pair colonless).mp named
    cases d <;> revert read <;> decide
  obtain ⟨padded, -⟩ := override_laws standard
  obtain ⟨-, laws⟩ := override_laws ⟨field, .ascending, []⟩
  exact ⟨by decide, by decide, by decide, by decide, hl, hr,
    padded field _ left right .descending (by decide) (by decide) (by decide) (by decide) hl hr,
    unnamed, (laws twice).2.2.2.1 unnamed⟩

example : standard.override (ofString " : up") = standard := by decide

end SortConfig

end PhotoQuery.Gallery
