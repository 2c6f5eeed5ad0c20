import SelectCompiler.Postgres.BindValue
import SelectCompiler.Proofs.Outcome
import SelectCompiler.Proofs.Text.Numeral

/-!
Integers as parameters. A number and a text that is a number with blanks around it are bound as the
same value, or are both refused, whatever type that takes integers is asked for. How dates are read
makes no difference.
-/

namespace SelectCompiler

namespace BindValue

open Text (signedLimit decimal)

variable {n : Int}

/-- The types that take an integer for what it is, and not for its text. -/
def TakesInteger (hint : TypeHint) : Prop :=
  hint ∈ [.integer, .int, .positive, .boolean]

theorem integer?_decimal : integer? (.string (decimal n)) = integer? (.number (.integer n)) := by
  calc
    integer? (.string (decimal n)) = Text.signed? (decimal n) := by rw [integer?, Text.trim_decimal]
    _ = integer? (.number (.integer n)) := Text.signed?_decimal

theorem bool?_decimal : bool? (.string (decimal n)) = bool? (.number (.integer n)) := by
  by_cases isZero : n = 0
  · rw [isZero]
    decide +kernel
  by_cases isOne : n = 1
  · rw [isOne]
    decide +kernel
  have neither : bool? (.number (.integer n)) = none := by
    rw [bool?, if_neg isZero, if_neg isOne]
  have noLetter (c : Char) (letter : c.isDigit = false ∧ c ≠ '-') : c ∉ (decimal n).toList := by
    intro member
    rcases Text.mem_decimal c member with digit | minus
    · exact absurd (digit.symm.trans letter.1) (by decide)
    · exact letter.2 minus
  rw [neither, bool?, Text.trim_decimal, Text.toLower_decimal]
  split
  · rename_i one
    have written : decimal 1 = "1" := by decide
    exact absurd (Text.decimal_injective (one.trans written.symm)) isOne
  · rename_i letters
    exact absurd (by rw [letters]; decide) (noLetter 't' (by decide))
  · rename_i zero
    have written : decimal 0 = "0" := by decide
    exact absurd (Text.decimal_injective (zero.trans written.symm)) isZero
  · rename_i letters
    exact absurd (by rw [letters]; decide) (noLetter 'f' (by decide))
  · rfl

section Hints

variable {readers : Calendar.Readers} {hint : TypeHint}

/-- A text is bound for its trimmed self unless it is bound as a text. -/
theorem ofJson?_of_trim_eq {first second : String} (takes : TakesInteger hint)
    (same : Text.trim first = Text.trim second) :
    ofJson? readers hint (.string first) = ofJson? readers hint (.string second) := by
  have integers : integer? (.string first) = integer? (.string second) := by
    rw [integer?, same, integer?]
  have booleans : bool? (.string first) = bool? (.string second) := by
    rw [bool?, same, bool?]
  simp only [TakesInteger, List.mem_cons, List.not_mem_nil, or_false] at takes
  rcases takes with rfl | rfl | rfl | rfl <;>
    simp only [ofJson?, integers, booleans]

theorem ofJson?_decimal (takes : TakesInteger hint) :
    ofJson? readers hint (.string (decimal n)) = ofJson? readers hint (.number (.integer n)) := by
  simp only [TakesInteger, List.mem_cons, List.not_mem_nil, or_false] at takes
  rcases takes with rfl | rfl | rfl | rfl <;>
    simp only [ofJson?, integer?_decimal, bool?_decimal]

theorem integer?_eq_some_iff (least : -signedLimit ≤ n) {value : Int} :
    integer? (.number (.integer n)) = some value ↔ n < signedLimit ∧ value = n := by
  rw [integer?, Option.ite_none_right_eq_some, Option.some_inj, and_iff_right least, eq_comm]

theorem ofJson?_integer_eq_some_iff (least : -signedLimit ≤ n) {value : BindValue} :
    ofJson? readers .integer (.number (.integer n)) = some value ↔
      n < signedLimit ∧ value = .int n := by
  simp only [ofJson?, Option.map_eq_some_iff, integer?_eq_some_iff least]
  constructor
  · rintro ⟨_, ⟨small, rfl⟩, rfl⟩
    exact ⟨small, rfl⟩
  · rintro ⟨small, rfl⟩
    exact ⟨n, ⟨small, rfl⟩, rfl⟩

theorem ofJson?_positive_eq_some_iff (least : -signedLimit ≤ n) {value : BindValue} :
    ofJson? readers .positive (.number (.integer n)) = some value ↔
      (0 < n ∧ n < signedLimit) ∧ value = .int n := by
  simp only [ofJson?, Option.map_eq_some_iff, Option.filter_eq_some_iff, decide_eq_true_eq,
    integer?_eq_some_iff least]
  constructor
  · rintro ⟨_, ⟨⟨small, rfl⟩, positive⟩, rfl⟩
    exact ⟨⟨positive, small⟩, rfl⟩
  · rintro ⟨⟨positive, small⟩, rfl⟩
    exact ⟨n, ⟨⟨small, rfl⟩, positive⟩, rfl⟩

theorem ofJson?_padded_decimal {lead trail : String} (takes : TakesInteger hint)
    (leading : ∀ c ∈ lead.toList, Text.isBlank c = true)
    (trailing : ∀ c ∈ trail.toList, Text.isBlank c = true) :
    ofJson? readers hint (.string (lead ++ decimal n ++ trail)) =
      ofJson? readers hint (.number (.integer n)) := by
  calc
    ofJson? readers hint (.string (lead ++ decimal n ++ trail)) =
        ofJson? readers hint (.string (decimal n)) :=
      ofJson?_of_trim_eq takes (Text.trim_padded leading trailing _)
    _ = ofJson? readers hint (.number (.integer n)) := ofJson?_decimal takes

end Hints

section Parameters

variable {readers : Calendar.Readers} {parameter : Where.Parameter}

theorem ofParameter_eq_ok_iff {value : BindValue} :
    ofParameter parameter readers = .ok value ↔
      ofJson? readers parameter.hint parameter.value = some value := by
  rw [ofParameter]
  cases ofJson? readers parameter.hint parameter.value with
  | none => simp
  | some bound => rw [ok_eq_ok_iff, Option.some_inj, eq_comm]

theorem ofParameter_refuses (refused : ofJson? readers parameter.hint parameter.value = none) :
    ∃ fault, ofParameter parameter readers = .error fault ∧ fault.kind = .parameterType := by
  rw [ofParameter, refused]
  exact ⟨_, rfl, rfl⟩

/-- Values that a hint makes the same of are bound alike or refused alike. -/
theorem ofParameter_alike {index : Nat} {hint : TypeHint} {first second : Json}
    (same : ofJson? readers hint second = ofJson? readers hint first) :
    (∃ value, ofParameter ⟨index, first, hint⟩ readers = .ok value ∧
      ofParameter ⟨index, second, hint⟩ readers = .ok value) ∨
    ∃ fault other, ofParameter ⟨index, first, hint⟩ readers = .error fault ∧
      fault.kind = .parameterType ∧ ofParameter ⟨index, second, hint⟩ readers = .error other ∧
      other.kind = .parameterType := by
  cases bound : ofJson? readers hint first with
  | some value =>
    left
    exact ⟨value, ofParameter_eq_ok_iff.mpr bound, ofParameter_eq_ok_iff.mpr (same.trans bound)⟩
  | none =>
    right
    obtain ⟨fault, refused, kind⟩ := @ofParameter_refuses readers ⟨index, first, hint⟩ bound
    obtain ⟨other, refusedToo, kindToo⟩ :=
      @ofParameter_refuses readers ⟨index, second, hint⟩ (same.trans bound)
    exact ⟨fault, other, refused, kind, refusedToo, kindToo⟩

end Parameters

/-- An integer is bound the same as a number and as a text with blanks around it, or is refused as
both. The types for integers take it if it fits a signed word, and the one for positive integers if
it is positive besides. -/
theorem ofParameter_padded_decimal (readers : Calendar.Readers) {hint : TypeHint}
    {lead trail : String} (index : Nat)
    (takes : TakesInteger hint) (least : -9223372036854775808 ≤ n)
    (leading : ∀ c ∈ lead.toList, Text.isBlank c = true)
    (trailing : ∀ c ∈ trail.toList, Text.isBlank c = true) :
    let number := ofParameter ⟨index, .number (.integer n), hint⟩ readers
    let text := ofParameter ⟨index, .string (lead ++ decimal n ++ trail), hint⟩ readers
    ((∃ value, number = .ok value ∧ text = .ok value) ∨
      ∃ fault other, number = .error fault ∧ fault.kind = .parameterType ∧
        text = .error other ∧ other.kind = .parameterType) ∧
    (hint = .integer ∨ hint = .int → ∀ value,
      number = .ok value ↔ n ≤ 9223372036854775807 ∧ value = .int n) ∧
    (hint = .positive → ∀ value,
      number = .ok value ↔ (0 < n ∧ n ≤ 9223372036854775807) ∧ value = .int n) := by
  intro number text
  have limit : (signedLimit : Int) = 9223372036854775808 := rfl
  have small : n < signedLimit ↔ n ≤ 9223372036854775807 := by omega
  refine ⟨ofParameter_alike (ofJson?_padded_decimal takes leading trailing), ?_, ?_⟩
  · intro whole value
    have taken : ofJson? readers .integer (.number (.integer n)) = some value ↔
        n < signedLimit ∧ value = .int n := ofJson?_integer_eq_some_iff (by omega)
    rw [ofParameter_eq_ok_iff, ← small]
    rcases whole with rfl | rfl <;> exact taken
  · rintro rfl value
    rw [ofParameter_eq_ok_iff, ← small]
    exact ofJson?_positive_eq_some_iff (by omega)

/-- The largest signed word, asked for as a positive number, as a number and between blanks. -/
theorem ofParameter_padded_decimal_largest :
    let text := "\u00a0" ++ decimal 9223372036854775807 ++ "\t\u3000"
    text = "\u00a09223372036854775807\t\u3000" ∧
      ofParameter ⟨3, .string text, .positive⟩ = .ok (.int 9223372036854775807) ∧
      ofParameter ⟨3, .number (.integer 9223372036854775807), .positive⟩ =
        .ok (.int 9223372036854775807) := by
  intro text
  have takes : TakesInteger .positive := by simp [TakesInteger]
  have leading : ∀ c ∈ "\u00a0".toList, Text.isBlank c = true := List.all_eq_true.mp (by decide)
  have trailing : ∀ c ∈ "\t\u3000".toList, Text.isBlank c = true := List.all_eq_true.mp (by decide)
  obtain ⟨same, _, positive⟩ := ofParameter_padded_decimal (n := 9223372036854775807)
    Calendar.readers 3 takes (by decide) leading trailing
  have number := (positive rfl (.int 9223372036854775807)).mpr ⟨by decide, rfl⟩
  refine ⟨by decide, ?_, number⟩
  rcases same with ⟨value, first, second⟩ | ⟨fault, _, refused, _⟩
  · rw [second, ← first, number]
  · rw [number] at refused
    cases refused

end BindValue

end SelectCompiler
