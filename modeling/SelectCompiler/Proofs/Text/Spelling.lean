import Mathlib.Data.List.Forall2
import SelectCompiler.Proofs.Text.Trimming
import SelectCompiler.Proofs.Text.Words

/-!
Texts that differ in their blanks alone, or in the case of their ASCII letters alone. The words of a
text do not depend on the blanks around and between them, and a letter is visible in either case.
-/

namespace SelectCompiler

namespace Text

/-- One run of blanks in a text replaced by another, or blanks put around the text. -/
inductive Respaced : String → String → Prop where
  | gap (before after : String) {gap other : String} (filled : gap ≠ "")
      (blank : ∀ c ∈ gap.toList, isBlank c = true) (filledToo : other ≠ "")
      (blankToo : ∀ c ∈ other.toList, isBlank c = true) :
      Respaced (before ++ gap ++ after) (before ++ other ++ after)
  | padded (text : String) {lead trail : String} (leading : ∀ c ∈ lead.toList, isBlank c = true)
      (trailing : ∀ c ∈ trail.toList, isBlank c = true) : Respaced text (lead ++ text ++ trail)

/-- The same characters, any ASCII letters among them in either case. -/
def Recased (first second : String) : Prop :=
  List.Forall₂ (fun c d => d = c ∨ d = c.toUpper ∨ d = c.toLower) first.toList second.toList

variable {first second : String}

theorem Respaced.words_eq (respaced : Respaced first second) : words first = words second := by
  cases respaced with
  | gap before after filled blank filledToo blankToo =>
    rw [words_append_gap filled blank, words_append_gap filledToo blankToo]
  | padded text leading trailing =>
    rw [words_append_blanks _ trailing, words_blanks_append leading]

section Case

variable {c : Char}

/-- A character is moved down by 32 if it is a small ASCII letter, and is kept if it is not. -/
theorem toUpper_cases (c : Char) :
    (c.toUpper = c ∧ ¬(97 ≤ c.toNat ∧ c.toNat ≤ 122)) ∨
      (97 ≤ c.toNat ∧ c.toNat ≤ 122) ∧ c.toUpper.toNat + 32 = c.toNat := by
  by_cases small : 'a'.val ≤ c.val ∧ c.val ≤ 'z'.val
  · have moved : c.toUpper.toNat = (c.val + ('A'.val - 'a'.val)).toNat := by
      unfold Char.toUpper
      rw [dif_pos small]
      rfl
    have shift : ('A'.val - 'a'.val).toNat = 2 ^ 32 - 32 := by decide
    have bounds : 97 ≤ c.val.toNat ∧ c.val.toNat ≤ 122 := small
    have value : c.toNat = c.val.toNat := rfl
    rw [UInt32.toNat_add, shift] at moved
    omega
  · exact .inl ⟨dif_neg small, small⟩

theorem toLower_cases (c : Char) :
    (c.toLower = c ∧ ¬(65 ≤ c.toNat ∧ c.toNat ≤ 90)) ∨
      (65 ≤ c.toNat ∧ c.toNat ≤ 90) ∧ c.toLower.toNat = c.toNat + 32 := by
  by_cases capital : c.val ≥ 'A'.val ∧ c.val ≤ 'Z'.val
  · have moved : c.toLower.toNat = (c.val + ('a'.val - 'A'.val)).toNat := by
      unfold Char.toLower
      rw [dif_pos capital]
      rfl
    have shift : ('a'.val - 'A'.val).toNat = 32 := by decide
    have bounds : 65 ≤ c.val.toNat ∧ c.val.toNat ≤ 90 := capital
    have value : c.toNat = c.val.toNat := rfl
    rw [UInt32.toNat_add, shift] at moved
    omega
  · exact .inl ⟨dif_neg capital, capital⟩

theorem toUpper_of_isDigit (digit : c.isDigit = true) : c.toUpper = c := by
  have bounds : 48 ≤ c.toNat ∧ c.toNat ≤ 57 := Char.isDigit_iff_toNat.mp digit
  rcases toUpper_cases c with ⟨kept, _⟩ | ⟨small, _⟩
  · exact kept
  · omega

theorem toLower_of_isDigit (digit : c.isDigit = true) : c.toLower = c := by
  have bounds : 48 ≤ c.toNat ∧ c.toNat ≤ 57 := Char.isDigit_iff_toNat.mp digit
  rcases toLower_cases c with ⟨kept, _⟩ | ⟨capital, _⟩
  · exact kept
  · omega

theorem isBlank_of_letter (bounds : 65 ≤ c.toNat ∧ c.toNat ≤ 122) : isBlank c = false := by
  rw [Bool.eq_false_iff]
  intro blank
  simp only [isBlank, blankRanges, List.any_cons, List.any_nil, Bool.or_false, Bool.or_eq_true,
    Bool.and_eq_true, decide_eq_true_eq] at blank
  omega

theorem isBlank_of_isAlphanum (alphanumeric : c.isAlphanum = true) : isBlank c = false := by
  have either : ((c.isUpper || c.isLower) || c.isDigit) = true := alphanumeric
  rw [Bool.or_eq_true, Bool.or_eq_true] at either
  rcases either with (capital | small) | digit
  · have bounds : 65 ≤ c.toNat ∧ c.toNat ≤ 90 := of_decide_eq_true capital
    exact isBlank_of_letter (by omega)
  · have low : 97 ≤ c.toNat := of_decide_eq_true (Bool.and_eq_true_iff.mp small).1
    have high : c.toNat ≤ 122 := of_decide_eq_true (Bool.and_eq_true_iff.mp small).2
    exact isBlank_of_letter (by omega)
  · exact isBlank_of_isDigit digit

/-- A letter is visible in either case. -/
theorem isBlank_toUpper (c : Char) : isBlank c.toUpper = isBlank c := by
  rcases toUpper_cases c with ⟨kept, _⟩ | ⟨small, moved⟩
  · rw [kept]
  · rw [isBlank_of_letter (by omega), isBlank_of_letter (by omega)]

end Case

end Text

end SelectCompiler
