import Mathlib
import SelectCompiler.Proofs.Text.Spelling

/-!
Texts in upper case. It does not show the case that a text had before, and it goes word by word, so
it may be taken before or after the blanks between the words are cut to one space.
-/

namespace SelectCompiler

namespace Text

variable {first second : String}

theorem Recased.toUpper_eq (recased : Recased first second) : first.toUpper = second.toUpper := by
  rw [← String.toList_inj, String.toUpper, String.toUpper, String.toList_map, String.toList_map]
  unfold Recased at recased
  generalize first.toList = chars at recased ⊢
  generalize second.toList = others at recased ⊢
  induction recased with
  | nil => rfl
  | cons same _ ih =>
    rw [List.map_cons, List.map_cons, ih]
    rcases same with rfl | rfl | rfl
    · rfl
    · rw [Char.toUpper_toUpper_eq_toUpper]
    · rw [Char.toUpper_toLower_eq_toUpper]

theorem splitOnP_map {α β : Type} (f : α → β) (separates : β → Bool) (list : List α) :
    (list.map f).splitOnP separates =
      (list.splitOnP fun x => separates (f x)).map (List.map f) := by
  induction list with
  | nil => rfl
  | cons x rest ih =>
    rw [List.map_cons, List.splitOnP_cons_eq_if_modifyHead, List.splitOnP_cons_eq_if_modifyHead, ih]
    by_cases separator : separates (f x) = true
    · rw [if_pos separator, if_pos separator]
      rfl
    · rw [if_neg separator, if_neg separator]
      cases (rest.splitOnP fun x => separates (f x)) <;> rfl

/-- The words of a text in upper case are its words in upper case. -/
theorem words_toUpper (text : String) : words text.toUpper = (words text).map String.toUpper := by
  have same : (fun c : Char => isBlank c.toUpper) = isBlank := funext isBlank_toUpper
  rw [words, String.toUpper, String.toList_map, splitOnP_map, same, words, List.filter_map,
    List.map_map, List.map_map]
  have filled : ((fun chars : List Char => !chars.isEmpty) ∘ List.map Char.toUpper) =
      fun chars => !chars.isEmpty := by
    funext chars
    rw [Function.comp_apply, List.isEmpty_map]
  rw [filled]
  apply List.map_congr_left
  intro chars _
  rw [Function.comp_apply, Function.comp_apply, ← String.toList_inj, String.toUpper,
    String.toList_ofList, String.toList_map, String.toList_ofList]

theorem toUpper_append (first second : String) :
    (first ++ second).toUpper = first.toUpper ++ second.toUpper := by
  simp only [← String.toList_inj, String.toUpper, String.toList_map, String.toList_append,
    List.map_append]

/-- A text brought to upper case with one space between its words is its upper case with one space
between its words. -/
theorem toUpper_squeeze (text : String) : (squeeze text).toUpper = squeeze text.toUpper := by
  have space : " ".toUpper = " " := by decide +kernel
  have joined (list : List String) :
      (" ".intercalate list).toUpper = " ".intercalate (list.map String.toUpper) := by
    induction list with
    | nil => decide +kernel
    | cons word rest ih =>
      by_cases last : rest = []
      · rw [last, String.intercalate_singleton, List.map_singleton, String.intercalate_singleton]
      · have more : rest.map String.toUpper ≠ [] := by rwa [Ne, List.map_eq_nil_iff]
        rw [String.intercalate_cons_of_ne_nil last, List.map_cons,
          String.intercalate_cons_of_ne_nil more, toUpper_append, toUpper_append, ih, space]
  rw [squeeze, joined, ← words_toUpper, squeeze]

/-- A text in that form stays as it is. -/
theorem toUpper_squeeze_toUpper_squeeze (text : String) :
    (squeeze (squeeze text).toUpper).toUpper = (squeeze text).toUpper := by
  have idempotent : text.toUpper.toUpper = text.toUpper := by
    rw [String.toUpper, String.toUpper, String.map_map]
    congr 1
    funext c
    exact Char.toUpper_toUpper_eq_toUpper c
  rw [toUpper_squeeze text, toUpper_squeeze, toUpper_squeeze, idempotent, squeeze, words_squeeze,
    squeeze]

end Text

end SelectCompiler
