import PhotoQuery.Proofs.Expr.Agreement
import PhotoQuery.Proofs.Text.Parts

/-!
# Expr — what the string tests find

The string tests ignore case: they look for the small letters of the needle in those of the text.
One would expect that they find a needle that stands in the text as it is.  They need not.  The
small form of a capital sigma depends on its neighbours, and the needle alone has other neighbours
than in the text (`Expr.stringTest_misses`).

Where a needle stands in the text between code points, this is the only way to miss it:
`Expr.stringTest_between` says that a needle which keeps its sigmas is found, and that at the start
and at the end of a text no other one is.  Half of a surrogate pair has no case of its own, so a
needle that starts with one may be missed as well.
-/

namespace PhotoQuery

open Text Outcome

namespace StringTest

/-- The test looks for a needle that stands between these texts. -/
def LooksBetween : StringTest → Text → Text → Prop
  | .contains, _, _ => True
  | .startsWith, before, _ => before = []
  | .endsWith, _, after => after = []

/-- Every text has the empty needle everywhere. -/
theorem holds_nil (test : StringTest) (text : Text) : test.holds text [] := by
  have nothing : lower [] = [] := rfl
  rw [holds_eq, nothing]
  cases test <;> simp [ofTexts]

/-- A needle that keeps its sigmas is found; at an end of the text no other one is. -/
theorem holds_between {test : StringTest} {before needle after : Text}
    (place : test.LooksBetween before after) (whole : Whole before needle after) :
    (KeepsSigmas before needle after → test.holds (before ++ needle ++ after) needle) ∧
      (test ≠ .contains → test.holds (before ++ needle ++ after) needle →
        KeepsSigmas before needle after) := by
  by_cases empty : needle = []
  · subst empty
    exact ⟨fun _ => holds_nil test _, fun _ _ => keepsSigmas_of_not_mem _ _ List.not_mem_nil⟩
  -- `middle` stands in the small letters of the text where the needle stands in the text
  obtain ⟨left, middle, right, text, start, stop, length, kept⟩ := exists_lower_between whole empty
  rw [← kept, holds_eq, text]
  cases test with
  | contains =>
    refine ⟨fun same => decide_eq_true ?_, fun other => absurd rfl other⟩
    exact same ▸ ⟨left, right, rfl⟩
  | startsWith =>
    obtain rfl := start place
    refine ⟨fun same => decide_eq_true ?_, fun _ found => ?_⟩
    · exact same ▸ ⟨right, rfl⟩
    · obtain ⟨rest, whole⟩ := of_decide_eq_true found
      exact (List.append_inj whole length.symm).1.symm
  | endsWith =>
    obtain rfl := stop place
    refine ⟨fun same => decide_eq_true ?_, fun _ found => ?_⟩
    · exact same ▸ ⟨left, (List.append_nil _).symm⟩
    · obtain ⟨rest, whole⟩ := of_decide_eq_true found
      rw [List.append_nil] at whole
      exact (List.append_inj' whole length.symm).2.symm

-- the second half of a capital letter that takes two units
example : contains.holds [0xD801, 0xDC00] [0xDC00] = false := by decide +kernel

end StringTest

/-- A reading that has a string for a photo is one of strings. -/
theorem Reading.exists_string_of_value {r : Reading} {photo : Image} {text : Text}
    (h : r.value photo = some (.string text)) :
    ∃ read, r = .string read ∧ read photo = some text := by
  cases r with
  | string read => exact ⟨read, rfl, by simpa [value] using h⟩
  | null => cases h
  | _ => simp [value] at h

namespace Expr

/-- The call of a string test compiles, and gives the test of its arguments where both are there. -/
theorem compile_stringTest {text needle : Expr} {c d : Compiled} (ht : text.compile = .ok c)
    (hn : needle.compile = .ok d) {photo : Image} {t n : Text}
    (hv : c.value photo = some (.string t)) (hw : d.value photo = some (.string n)) {name : Text}
    {test : StringTest} (named : name.IsNamed (Function.name (.stringTest test))) (position : Nat) :
    ∃ r, compile (.call name position [text, needle]) = .ok r ∧
      r.value photo = some (.boolean (test.holds t n)) := by
  obtain ⟨read, hr, hv⟩ := Reading.exists_string_of_value hv
  obtain ⟨sought, hs, hw⟩ := Reading.exists_string_of_value hw
  have args : compileAll [text, needle] = .ok [c, d] := by
    simp only [compileAll, ht, hn, ok_bind]
  refine ⟨_, compile_call named args (by simp only [Function.call, hr, hs]; rfl), ?_⟩
  simp only [Compiled.value, Reading.value_test, hv, hw]

/-- **A string test finds a needle that keeps its sigmas.**  Take a call of a string test on a photo
for which both arguments have a value, and let the needle stand in the text, between code points, at
a place where the test looks.  The call compiles and is true or false of the photo.  It is true if
the needle keeps its sigmas there; and if the place is the start or the end of the text, it is true
only then. -/
theorem stringTest_between {text needle : Expr} {c d : Compiled} (ht : text.compile = .ok c)
    (hn : needle.compile = .ok d) {photo : Image} {before sought after : Text}
    (hv : c.value photo = some (.string (before ++ sought ++ after)))
    (hw : d.value photo = some (.string sought)) (whole : Whole before sought after)
    {test : StringTest} (place : test.LooksBetween before after) {name : Text}
    (named : name.IsNamed (Function.name (.stringTest test))) (position : Nat) :
    ∃ r truth, compile (.call name position [text, needle]) = .ok r ∧
      r.value photo = some (.boolean truth) ∧
      (KeepsSigmas before sought after → truth = true) ∧
      (test ≠ .contains → truth = true → KeepsSigmas before sought after) := by
  obtain ⟨r, compiled, value⟩ := compile_stringTest ht hn hv hw named position
  exact ⟨r, _, compiled, value, StringTest.holds_between place whole⟩

/-- A file name that starts with `ΟΔΟΣ`: the sigma is the last letter of a word there too. -/
theorem stringTest_between_word :
    let text : Expr := .property [ofString "filename"] 12
    let needle : Expr := .constant (.string (ofString "ΟΔΟΣ")) 22
    let photo : Image := ⟨ofString "ΟΔΟΣ ΑΘΗΝΑΣ", .zero, .zero, none, none⟩
    ∃ c d, text.compile = .ok c ∧ needle.compile = .ok d ∧
      c.value photo = some (.string ([] ++ ofString "ΟΔΟΣ" ++ ofString " ΑΘΗΝΑΣ")) ∧
      d.value photo = some (.string (ofString "ΟΔΟΣ")) ∧
      Whole [] (ofString "ΟΔΟΣ") (ofString " ΑΘΗΝΑΣ") ∧
      StringTest.startsWith.LooksBetween [] (ofString " ΑΘΗΝΑΣ") ∧
      (ofString "Starts_With").IsNamed (Function.name (.stringTest .startsWith)) ∧
      KeepsSigmas [] (ofString "ΟΔΟΣ") (ofString " ΑΘΗΝΑΣ") ∧
      ∃ r truth, compile (.call (ofString "Starts_With") 0 [text, needle]) = .ok r ∧
        r.value photo = some (.boolean truth) ∧
        (KeepsSigmas [] (ofString "ΟΔΟΣ") (ofString " ΑΘΗΝΑΣ") → truth = true) ∧
        (StringTest.startsWith ≠ .contains → truth = true →
          KeepsSigmas [] (ofString "ΟΔΟΣ") (ofString " ΑΘΗΝΑΣ")) := by
  intro text needle photo
  have ht : text.compile = .ok ⟨.string fun photo => some photo.filename, false, 12⟩ := rfl
  have hn : needle.compile = .ok ⟨.string fun _ => some (ofString "ΟΔΟΣ"), false, 22⟩ := rfl
  have hv : Compiled.value ⟨.string fun photo => some photo.filename, false, 12⟩ photo =
      some (.string ([] ++ ofString "ΟΔΟΣ" ++ ofString " ΑΘΗΝΑΣ")) := by decide +kernel
  have whole : Whole [] (ofString "ΟΔΟΣ") (ofString " ΑΘΗΝΑΣ") := ⟨by decide, by decide⟩
  have named : (ofString "Starts_With").IsNamed (Function.name (.stringTest .startsWith)) := by
    decide +kernel
  have kept : KeepsSigmas [] (ofString "ΟΔΟΣ") (ofString " ΑΘΗΝΑΣ") := by decide +kernel
  have place : StringTest.startsWith.LooksBetween [] (ofString " ΑΘΗΝΑΣ") := rfl
  exact ⟨_, _, ht, hn, hv, rfl, whole, place, named, kept,
    stringTest_between ht hn hv rfl whole place named 0⟩

/-- The file name `ΑΣΒΣ` starts with `ΑΣ` and ends with `Σ`, but alone the one ends in a final sigma
and the other in a sigma that is not final.  No test finds them. -/
theorem stringTest_misses :
    let photo : Image := ⟨ofString "ΑΣΒΣ", .zero, .zero, none, none⟩
    let call (name needle : String) : Expr := .call (ofString name) 0
      [.property [ofString "filename"] 12, .constant (.string (ofString needle)) 22]
    ofString "ΑΣ" <+: photo.filename ∧ ofString "Σ" <:+ photo.filename ∧
      (∃ c, compile (call "contains" "ΑΣ") = .ok c ∧ c.value photo = some (.boolean false)) ∧
      (∃ c, compile (call "starts_with" "ΑΣ") = .ok c ∧ c.value photo = some (.boolean false)) ∧
      ∃ c, compile (call "ends_with" "Σ") = .ok c ∧ c.value photo = some (.boolean false) := by
  intro photo call
  have missed {e : Expr} {c : Compiled} (h : compile e = .ok c)
      (value : ((compile e).toOption.bind fun c => c.value photo) = some (.boolean false)) :
      ∃ c, compile e = .ok c ∧ c.value photo = some (.boolean false) :=
    ⟨c, h, by rwa [h] at value⟩
  exact ⟨by decide, by decide, missed rfl (by decide +kernel), missed rfl (by decide +kernel),
    missed rfl (by decide +kernel)⟩

end Expr

end PhotoQuery
