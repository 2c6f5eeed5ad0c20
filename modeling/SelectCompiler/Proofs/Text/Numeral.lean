import SelectCompiler.Proofs.Text.Spelling
import SelectCompiler.Text.Numeral

/-!
Numerals read back. A written natural number is a run of digits that a word is read from, and a
written integer is read as itself, both as far as the words of the machine reach. No blanks have to
be dropped from a numeral, and it has no letters.
-/

namespace SelectCompiler

namespace Text

section Natural

variable {n : Nat}

theorem isDigit_of_mem_repr : ∀ c ∈ n.repr.toList, c.isDigit = true := by
  intro c member
  rw [Nat.toList_repr] at member
  exact Nat.isDigit_of_mem_toDigits (by decide) (by decide) member

theorem toList_repr_ne_nil : n.repr.toList ≠ [] := by
  rw [Nat.toList_repr]
  exact Nat.toDigits_ne_nil

theorem digitsValue_repr : digitsValue n.repr.toList = n := by
  rw [digitsValue, Nat.toList_repr, Nat.ofDigitChars_ten_toDigits]

theorem word?_repr (fits : n < wordSize) : word? n.repr.toList = some n := by
  have digits : n.repr.toList.all Char.isDigit = true := List.all_eq_true.mpr isDigit_of_mem_repr
  rw [word?, digitsValue_repr, if_pos ⟨toList_repr_ne_nil, digits, fits⟩]

theorem word?_repr_of_le (large : wordSize ≤ n) : word? n.repr.toList = none := by
  rw [word?, digitsValue_repr, if_neg]
  rintro ⟨_, _, fits⟩
  exact absurd fits (Nat.not_lt.mpr large)

/-- A bound on a written number that is no larger than the words themselves is the only one. -/
theorem bind_word?_repr {α : Type} {fits : Nat → Prop} [DecidablePred fits] (read : Nat → α)
    (small : ∀ m, fits m → m < wordSize) :
    ((word? n.repr.toList).bind fun m => if fits m then some (read m) else none) =
      if fits n then some (read n) else none := by
  by_cases word : n < wordSize
  · rw [word?_repr word, Option.bind_some]
  · rw [word?_repr_of_le (Nat.not_lt.mp word), Option.bind_none, if_neg (mt (small n) word)]

end Natural

variable {n : Int}

theorem toList_decimal_negSucc (n : Nat) :
    (decimal (.negSucc n)).toList = '-' :: (n + 1).repr.toList := by
  rw [decimal, String.toList_append]
  rfl

theorem signed?_of_digits {text : String} (digits : ∀ c ∈ text.toList, c.isDigit = true) :
    signed? text = signed?.nonnegative text.toList := by
  unfold signed?
  split
  · rename_i minus
    rw [minus] at digits
    exact absurd (digits '-' (by simp)) (by decide)
  · rename_i plus
    rw [plus] at digits
    exact absurd (digits '+' (by simp)) (by decide)
  · rfl

theorem signed?_of_minus {text : String} {digits : List Char}
    (minus : text.toList = '-' :: digits) :
    signed? text =
      (word? digits).bind fun m => if m ≤ signedLimit then some (-(m : Int)) else none := by
  unfold signed?
  rw [minus]
  rfl

/-- An integer is read back from its decimal text if it fits a signed word. -/
theorem signed?_decimal :
    signed? (decimal n) = if -signedLimit ≤ n ∧ n < signedLimit then some n else none := by
  have sizes : signedLimit < wordSize := by decide
  cases n with
  | ofNat n =>
    rw [decimal, signed?_of_digits isDigit_of_mem_repr, signed?.nonnegative,
      bind_word?_repr _ fun m fits => fits.trans sizes, Int.ofNat_eq_natCast]
    by_cases fits : n < signedLimit
    · rw [if_pos fits, if_pos (by omega)]
    · rw [if_neg fits, if_neg (by omega)]
  | negSucc n =>
    rw [signed?_of_minus (toList_decimal_negSucc n),
      bind_word?_repr _ fun m fits => lt_of_le_of_lt fits sizes]
    by_cases fits : n + 1 ≤ signedLimit
    · rw [if_pos fits, if_pos (by omega)]
      rfl
    · rw [if_neg fits, if_neg (by omega)]

theorem mem_decimal : ∀ c ∈ (decimal n).toList, c.isDigit = true ∨ c = '-' := by
  intro c member
  cases n with
  | ofNat n => exact .inl (isDigit_of_mem_repr c member)
  | negSucc n =>
    rw [toList_decimal_negSucc] at member
    rcases List.mem_cons.mp member with sign | digit
    · exact .inr sign
    · exact .inl (isDigit_of_mem_repr c digit)

theorem decimal_ne_empty : decimal n ≠ "" := by
  rw [Ne, ← String.toList_eq_nil_iff]
  cases n with
  | ofNat n => exact toList_repr_ne_nil
  | negSucc n =>
    rw [toList_decimal_negSucc]
    exact List.cons_ne_nil _ _

theorem trim_decimal : trim (decimal n) = decimal n := by
  apply trim_of_visible
  intro c member
  rcases mem_decimal c member with digit | rfl
  · exact isBlank_of_isDigit digit
  · decide

theorem toLower_decimal : (decimal n).toLower = decimal n := by
  have kept : ∀ c ∈ (decimal n).toList, c.toLower = c := by
    intro c member
    rcases mem_decimal c member with digit | rfl
    · exact toLower_of_isDigit digit
    · rfl
  have lower : (decimal n).toLower = (decimal n).map Char.toLower := rfl
  rw [lower, ← String.toList_inj, String.toList_map, List.map_congr_left kept, List.map_id']

theorem decimal_ofNat_ne_negSucc (m n : Nat) : decimal (.ofNat m) ≠ decimal (.negSucc n) := by
  intro same
  have minus : '-' ∈ (decimal (.ofNat m)).toList := by
    rw [same, toList_decimal_negSucc]
    exact List.mem_cons_self
  exact absurd (isDigit_of_mem_repr '-' minus) (by decide)

theorem decimal_injective : Function.Injective decimal := by
  have value {m n : Nat} (same : m.repr.toList = n.repr.toList) : m = n := by
    have values := congrArg digitsValue same
    rwa [digitsValue_repr, digitsValue_repr] at values
  intro m n same
  cases m with
  | ofNat m =>
    cases n with
    | ofNat n => rw [value (congrArg String.toList same)]
    | negSucc n => exact absurd same (decimal_ofNat_ne_negSucc m n)
  | negSucc m =>
    cases n with
    | ofNat n => exact absurd same.symm (decimal_ofNat_ne_negSucc n m)
    | negSucc n =>
      have digits := congrArg String.toList same
      rw [toList_decimal_negSucc, toList_decimal_negSucc] at digits
      rw [Nat.succ.inj (value (List.cons.inj digits).2)]

end Text

end SelectCompiler
