import Mathlib.Data.String.Basic

/-!
Texts as bytes. A character below 128 is one byte of its own value, all bytes of the others are 128
or more, and two texts are in the order of their bytes.
-/

namespace SelectCompiler.Text

/-- The UTF-8 encoding of a text. -/
def bytes (text : String) : List UInt8 := text.toUTF8.data.toList

/-- The UTF-8 encoding of characters one after the other. -/
def encode (chars : List Char) : List UInt8 := chars.flatMap String.utf8EncodeChar

theorem bytes_eq_encode (text : String) : bytes text = encode text.toList := by
  have encoded : text.toUTF8 = text.toList.utf8Encode := String.utf8Encode_toList.symm
  rw [bytes, encoded, List.utf8Encode, List.toList_data_toByteArray, encode]

theorem encode_cons (c : Char) (rest : List Char) :
    encode (c :: rest) = String.utf8EncodeChar c ++ encode rest := List.flatMap_cons

theorem encode_cons_of_ascii {c : Char} (ascii : c.toNat < 128) (rest : List Char) :
    encode (c :: rest) = UInt8.ofNat c.toNat :: encode rest := by
  have low : c.val.toNat ≤ 127 := Nat.le_of_lt_succ ascii
  rw [encode_cons, String.utf8EncodeChar, if_pos low]
  rfl

theorem le_of_mem_utf8EncodeChar {c : Char} (high : 128 ≤ c.toNat) {byte : UInt8}
    (member : byte ∈ String.utf8EncodeChar c) : 128 ≤ byte.toNat := by
  have high : 128 ≤ c.val.toNat := high
  unfold String.utf8EncodeChar at member
  simp only at member
  split at member
  · omega
  · split_ifs at member <;> simp only [List.mem_cons, List.not_mem_nil, or_false] at member <;>
      rcases member with rfl | rfl | rfl | rfl <;> simp only [UInt8.toNat_ofNat'] <;> omega

/-- The encodings of two characters in order differ before one of them ends, and where they differ
they are in the same order. -/
theorem utf8EncodeChar_append_lt {first second : Char} (less : first < second)
    (rest more : List UInt8) :
    String.utf8EncodeChar first ++ rest < String.utf8EncodeChar second ++ more := by
  have below : first.val.toNat < second.val.toNat := less
  have last : second.val.toNat < 0x110000 := by
    have valid := second.valid
    unfold UInt32.isValidChar Nat.isValidChar at valid
    omega
  unfold String.utf8EncodeChar
  generalize first.val.toNat = n at *
  generalize second.val.toNat = m at *
  simp only
  -- One case for every pair of lengths.
  split_ifs <;>
    simp (disch := omega) only [List.cons_append, List.nil_append, List.cons_lt_cons_iff,
      UInt8.lt_iff_toNat_lt, ← UInt8.toNat_inj, UInt8.toNat_ofNat', Nat.mod_eq_of_lt,
      Nat.reducePow] <;>
    omega

theorem encode_lt_of_lt {first second : List Char} (less : first < second) :
    encode first < encode second := by
  induction first generalizing second with
  | nil =>
    cases second with
    | nil => contradiction
    | cons c rest =>
      have filled : encode (c :: rest) ≠ [] := by
        rw [encode_cons]
        exact List.append_ne_nil_of_left_ne_nil String.utf8EncodeChar_ne_nil _
      obtain ⟨byte, others, split⟩ := List.exists_cons_of_ne_nil filled
      rw [split]
      exact List.nil_lt_cons byte others
  | cons c rest ih =>
    cases second with
    | nil => contradiction
    | cons d more =>
      rw [encode_cons, encode_cons]
      obtain before | ⟨rfl, later⟩ := List.cons_lt_cons_iff.mp less
      · exact utf8EncodeChar_append_lt before _ _
      · exact List.append_left_lt (ih later)

/-- Texts are in the order of their bytes. -/
theorem bytes_lt_iff {first second : String} : bytes first < bytes second ↔ first < second := by
  rw [bytes_eq_encode, bytes_eq_encode, String.lt_iff_toList_lt]
  constructor
  · intro less
    rcases lt_trichotomy first.toList second.toList with before | same | after
    · exact before
    · rw [same] at less
      exact absurd less (List.lt_irrefl _)
    · exact absurd less (List.lt_asymm (encode_lt_of_lt after))
  · exact encode_lt_of_lt

theorem bytes_le_iff {first second : String} : bytes first ≤ bytes second ↔ first ≤ second :=
  not_congr bytes_lt_iff

end SelectCompiler.Text
