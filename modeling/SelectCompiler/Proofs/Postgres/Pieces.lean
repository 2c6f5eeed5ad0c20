import SelectCompiler.Proofs.Postgres.Renumbering
import SelectCompiler.Proofs.Text.Bytes

/-!
Texts cut at their marks. A mark is a percent sign with all the digits behind it, and a text can be
cut into marks and other characters in one way only. The scan and the rewriting of placeholders are
two readings of the same cut, so they go by the same marks.
-/

namespace SelectCompiler.Placeholder

/-- A percent sign with the digits behind it, or any other character. -/
inductive Piece where
  | plain (c : Char)
  | mark (digits : List Char)
  deriving DecidableEq

namespace Piece

def chars : Piece → List Char
  | plain c => [c]
  | mark digits => '%' :: digits

/-- The index that the digits of a mark stand for. Zeros in front count for nothing, and a value
that does not fit a word is no index. -/
def index? : Piece → Option Nat
  | plain _ => none
  | mark digits =>
    if Text.digitsValue digits < Text.wordSize then some (Text.digitsValue digits) else none

/-- The position of the index of a mark. -/
def place? (position? : Nat → Option Nat) (piece : Piece) : Option Nat :=
  piece.index?.bind position?

/-- What is written for a piece: a mark with a position gives way to a dollar sign and the
position. -/
def renumbered (position? : Nat → Option Nat) (piece : Piece) : List Char :=
  (piece.place? position?).elim piece.chars fun position => (dollar position).toList

end Piece

/-- The pieces make up the text, and wherever a percent sign has a digit behind it there is a mark
that ends with the last of the digits. -/
inductive Cut : List Char → List Piece → Prop where
  | nil : Cut [] []
  | plain {c : Char} {rest : List Char} {pieces : List Piece}
      (unmarked : c = '%' → leadingDigits rest = []) (later : Cut rest pieces) :
      Cut (c :: rest) (.plain c :: pieces)
  | mark {digits rest : List Char} {pieces : List Piece} (filled : digits ≠ [])
      (digital : ∀ c ∈ digits, c.isDigit = true) (ended : leadingDigits rest = [])
      (later : Cut rest pieces) : Cut ('%' :: (digits ++ rest)) (.mark digits :: pieces)

/-- The cut of a text. -/
def cut : List Char → List Piece
  | [] => []
  | c :: rest =>
    if c = '%' ∧ leadingDigits rest ≠ [] then
      .mark (leadingDigits rest) :: cut (rest.dropWhile Char.isDigit)
    else .plain c :: cut rest
termination_by chars => chars.length
decreasing_by
  · have := (List.dropWhile_sublist Char.isDigit (l := rest)).length_le
    simp
    omega
  · simp

section Cut

variable {position? : Nat → Option Nat} {chars digits rest : List Char} {pieces : List Piece}

theorem leadingDigits_dropWhile (chars : List Char) :
    leadingDigits (chars.dropWhile Char.isDigit) = [] := by
  have first := List.head?_dropWhile_not Char.isDigit chars
  cases split : chars.dropWhile Char.isDigit with
  | nil => rfl
  | cons c rest =>
    rw [split, List.head?_cons] at first
    exact leadingDigits_cons (by simpa using first) rest

theorem leadingDigits_of_digits (digital : ∀ c ∈ digits, c.isDigit = true)
    (ended : leadingDigits rest = []) : leadingDigits (digits ++ rest) = digits := by
  rw [leadingDigits_append digits ended]
  exact List.takeWhile_eq_self_iff.mpr digital

theorem dropWhile_of_digits (digital : ∀ c ∈ digits, c.isDigit = true)
    (ended : leadingDigits rest = []) : (digits ++ rest).dropWhile Char.isDigit = rest := by
  rw [dropWhile_digits_append digits ended, List.dropWhile_eq_nil_iff.mpr digital,
    List.nil_append]

theorem percent_not_mem_of_digits (digital : ∀ c ∈ digits, c.isDigit = true) : '%' ∉ digits := by
  intro member
  have digit := digital _ member
  contradiction

theorem cut_cut (chars : List Char) : Cut chars (cut chars) := by
  fun_induction cut chars with
  | case1 => exact .nil
  | case2 c rest marked ih =>
    obtain ⟨rfl, filled⟩ := marked
    have split : leadingDigits rest ++ rest.dropWhile Char.isDigit = rest :=
      List.takeWhile_append_dropWhile
    have mark := Cut.mark filled (List.all_eq_true.mp List.all_takeWhile)
      (leadingDigits_dropWhile rest) ih
    rwa [split] at mark
  | case3 c rest unmarked ih =>
    exact .plain (fun percent => not_not.mp fun filled => unmarked ⟨percent, filled⟩) ih

theorem Cut.eq_cut (whole : Cut chars pieces) : pieces = cut chars := by
  induction whole with
  | nil => rw [cut]
  | plain unmarked later ih =>
    rw [cut, if_neg fun marked => marked.2 (unmarked marked.1), ih]
  | @mark digits rest pieces filled digital ended later ih =>
    have taken := leadingDigits_of_digits digital ended
    rw [cut, if_pos ⟨rfl, by rwa [taken]⟩, taken, dropWhile_of_digits digital ended, ih]

/-- There is one cut, and no other. -/
theorem cut_iff : Cut chars pieces ↔ pieces = cut chars :=
  ⟨Cut.eq_cut, fun same => same ▸ cut_cut chars⟩

theorem Cut.flatMap_chars (whole : Cut chars pieces) : pieces.flatMap Piece.chars = chars := by
  induction whole with
  | nil => rfl
  | plain unmarked later ih => rw [List.flatMap_cons, ih, Piece.chars, List.singleton_append]
  | mark filled digital ended later ih =>
    rw [List.flatMap_cons, ih, Piece.chars, List.cons_append]

theorem word?_of_digits (filled : digits ≠ []) (digital : ∀ c ∈ digits, c.isDigit = true) :
    Text.word? digits = (Piece.mark digits).index? := by
  have digital := List.all_eq_true.mpr digital
  simp only [Text.word?, Piece.index?, filled, digital, ne_eq, not_false_eq_true, true_and]

theorem scan_plain {c : Char} (unmarked : c = '%' → leadingDigits rest = []) :
    scan (c :: rest) = scan rest := by
  by_cases percent : c = '%'
  · rw [percent, scan_percent, unmarked percent]
    rfl
  · rw [scan, if_neg percent]

theorem scan_mark (filled : digits ≠ []) (digital : ∀ c ∈ digits, c.isDigit = true)
    (ended : leadingDigits rest = []) :
    scan ('%' :: (digits ++ rest)) = (Piece.mark digits).index?.toList ++ scan rest := by
  rw [scan_percent, leadingDigits_of_digits digital ended, word?_of_digits filled digital,
    scan_append_of_plain (percent_not_mem_of_digits digital)]

/-- The scan lists the indices of the marks. -/
theorem Cut.scan_eq (whole : Cut chars pieces) : scan chars = pieces.filterMap Piece.index? := by
  induction whole with
  | nil => rfl
  | plain unmarked later ih => rw [scan_plain unmarked, ih, List.filterMap_cons_none rfl]
  | @mark digits rest pieces filled digital ended later ih =>
    rw [scan_mark filled digital ended, ih]
    cases index : (Piece.mark digits).index? with
    | none => rw [List.filterMap_cons_none index, Option.toList_none, List.nil_append]
    | some value => rw [List.filterMap_cons_some index, Option.toList_some, List.singleton_append]

/-- Rewriting goes piece by piece. -/
theorem Cut.renumberChars_eq (whole : Cut chars pieces) :
    renumberChars position? chars = pieces.flatMap (Piece.renumbered position?) := by
  induction whole with
  | nil => rw [renumberChars, List.flatMap_nil]
  | @plain c rest pieces unmarked later ih =>
    rw [List.flatMap_cons, ← ih]
    by_cases percent : c = '%'
    · have free : (Text.word? (leadingDigits rest)).bind position? = none := by
        rw [unmarked percent]
        rfl
      rw [percent, renumberChars_percent_of_none free]
      rfl
    · rw [renumberChars_cons_of_ne percent]
      rfl
  | @mark digits rest pieces filled digital ended later ih =>
    have word : Text.word? (leadingDigits (digits ++ rest)) = (Piece.mark digits).index? := by
      rw [leadingDigits_of_digits digital ended, word?_of_digits filled digital]
    rw [List.flatMap_cons, ← ih, Piece.renumbered, Piece.place?]
    cases placed : (Piece.mark digits).index?.bind position? with
    | none =>
      rw [renumberChars_percent_of_none (by rw [word, placed]),
        renumberChars_append_of_plain (percent_not_mem_of_digits digital)]
      rfl
    | some position =>
      rw [renumberChars_percent_of_some (by rw [word, placed]),
        dropWhile_of_digits digital ended]
      rfl

end Cut

section Bytes

open Text (encode)

def isDigitByte (byte : UInt8) : Bool := 48 ≤ byte.toNat && byte.toNat ≤ 57

/-- The scan as a walk over the bytes of a text. Behind a percent sign with digits it goes on
where the digits end. -/
def walk : List UInt8 → List Nat
  | [] => []
  | byte :: rest =>
    if byte = 37 ∧ rest.takeWhile isDigitByte ≠ [] then
      (Text.word? ((rest.takeWhile isDigitByte).map fun digit => Char.ofNat digit.toNat)).toList
        ++ walk (rest.dropWhile isDigitByte)
    else walk rest
termination_by bytes => bytes.length
decreasing_by
  · have := (List.dropWhile_sublist isDigitByte (l := rest)).length_le
    simp
    omega
  · simp

variable {chars digits rest : List Char} {pieces : List Piece} {bytes more : List UInt8}

theorem walk_append_of_high (high : ∀ byte ∈ bytes, 128 ≤ byte.toNat) (more : List UInt8) :
    walk (bytes ++ more) = walk more := by
  induction bytes with
  | nil => rfl
  | cons byte rest ih =>
    obtain ⟨first, others⟩ := List.forall_mem_cons.mp high
    have other : byte ≠ 37 := by
      rintro rfl
      contradiction
    rw [List.cons_append, walk, if_neg fun marked => other marked.1, ih others]

theorem toNat_lt_of_isDigit {c : Char} (digit : c.isDigit = true) : c.toNat < 128 := by
  have bounds : 48 ≤ c.toNat ∧ c.toNat ≤ 57 := Char.isDigit_iff_toNat.mp digit
  omega

theorem isDigitByte_ofNat {c : Char} (ascii : c.toNat < 128) :
    isDigitByte (UInt8.ofNat c.toNat) = c.isDigit := by
  have small : c.toNat % 256 = c.toNat := by omega
  rw [Bool.eq_iff_iff, Char.isDigit_iff_toNat, isDigitByte, Bool.and_eq_true, decide_eq_true_eq,
    decide_eq_true_eq, UInt8.toNat_ofNat', small]
  exact Iff.rfl

/-- A text that starts with no digit starts with no digit byte. -/
theorem takeWhile_encode_of_ended (ended : leadingDigits rest = []) :
    (encode rest).takeWhile isDigitByte = [] := by
  cases rest with
  | nil => rfl
  | cons c rest =>
    have other : c.isDigit = false := by
      rw [Bool.eq_false_iff]
      intro digit
      simp [leadingDigits, digit] at ended
    by_cases ascii : c.toNat < 128
    · rw [Text.encode_cons_of_ascii ascii, List.takeWhile_cons_of_neg]
      rw [isDigitByte_ofNat ascii, other]
      exact Bool.false_ne_true
    · rw [Text.encode_cons]
      obtain ⟨byte, others, split⟩ := List.exists_cons_of_ne_nil (String.utf8EncodeChar_ne_nil)
      have high := Text.le_of_mem_utf8EncodeChar (Nat.le_of_not_lt ascii)
        (split ▸ List.mem_cons_self)
      rw [split, List.cons_append, List.takeWhile_cons_of_neg]
      simp [isDigitByte]
      omega

theorem encode_digits_append (digital : ∀ c ∈ digits, c.isDigit = true) (rest : List Char) :
    encode (digits ++ rest) = digits.map (fun c => UInt8.ofNat c.toNat) ++ encode rest := by
  induction digits with
  | nil => rfl
  | cons c digits ih =>
    obtain ⟨first, others⟩ := List.forall_mem_cons.mp digital
    rw [List.cons_append, Text.encode_cons_of_ascii (toNat_lt_of_isDigit first), ih others,
      List.map_cons, List.cons_append]

theorem isDigitByte_of_digits (digital : ∀ c ∈ digits, c.isDigit = true) :
    ∀ byte ∈ digits.map (fun c => UInt8.ofNat c.toNat), isDigitByte byte = true := by
  intro byte member
  obtain ⟨c, inside, rfl⟩ := List.mem_map.mp member
  rw [isDigitByte_ofNat (toNat_lt_of_isDigit (digital c inside)), digital c inside]

theorem takeWhile_encode_digits (digital : ∀ c ∈ digits, c.isDigit = true)
    (ended : leadingDigits rest = []) :
    (encode (digits ++ rest)).takeWhile isDigitByte =
      digits.map fun c => UInt8.ofNat c.toNat := by
  rw [encode_digits_append digital, List.takeWhile_append_of_pos (isDigitByte_of_digits digital),
    takeWhile_encode_of_ended ended, List.append_nil]

theorem dropWhile_encode_digits (digital : ∀ c ∈ digits, c.isDigit = true)
    (ended : leadingDigits rest = []) :
    (encode (digits ++ rest)).dropWhile isDigitByte = encode rest := by
  have split := List.takeWhile_append_dropWhile (p := isDigitByte) (l := encode rest)
  rw [takeWhile_encode_of_ended ended, List.nil_append] at split
  rw [encode_digits_append digital, List.dropWhile_append_of_pos (isDigitByte_of_digits digital),
    split]

theorem map_ofNat_digits (digital : ∀ c ∈ digits, c.isDigit = true) :
    (digits.map fun c => UInt8.ofNat c.toNat).map (fun digit => Char.ofNat digit.toNat) =
      digits := by
  have kept (c : Char) (member : c ∈ digits) :
      Char.ofNat (UInt8.ofNat c.toNat).toNat = c := by
    have ascii := toNat_lt_of_isDigit (digital c member)
    rw [UInt8.toNat_ofNat', Nat.mod_eq_of_lt (by omega), Char.ofNat_toNat]
  rw [List.map_map]
  exact List.map_congr_left kept |>.trans (List.map_id digits)

/-- The walk over the bytes finds what the scan finds. -/
theorem Cut.walk_eq (whole : Cut chars pieces) : walk (encode chars) = scan chars := by
  induction whole with
  | nil => rw [encode, List.flatMap_nil, walk, scan]
  | @plain c rest pieces unmarked later ih =>
    rw [scan_plain unmarked, ← ih]
    by_cases ascii : c.toNat < 128
    · rw [Text.encode_cons_of_ascii ascii, walk, if_neg]
      rintro ⟨byte, filled⟩
      have code := congrArg UInt8.toNat byte
      rw [UInt8.toNat_ofNat', Nat.mod_eq_of_lt (by omega)] at code
      exact filled (takeWhile_encode_of_ended (unmarked (Char.toNat_inj.mp code)))
    · rw [Text.encode_cons]
      exact walk_append_of_high
        (fun byte => Text.le_of_mem_utf8EncodeChar (Nat.le_of_not_lt ascii)) _
  | @mark digits rest pieces filled digital ended later ih =>
    have start : encode ('%' :: (digits ++ rest)) = 37 :: encode (digits ++ rest) :=
      Text.encode_cons_of_ascii (by decide) _
    have taken := takeWhile_encode_digits digital ended
    rw [start, walk, if_pos ⟨rfl, by simpa [taken] using filled⟩, taken,
      dropWhile_encode_digits digital ended, map_ofNat_digits digital, ih,
      word?_of_digits filled digital, scan_mark filled digital ended]

end Bytes

/-- The scan and the rewriting of placeholders go by the same marks. A text has one cut into marks
and other characters. The scan finds the indices of the marks, and so does a walk over the bytes.
Rewriting keeps all pieces but the marks whose index has a position; there it writes the positions
of the indices that the scan finds, one after the other. In the rewritten text the scan finds the
indices without a position and nothing else. -/
theorem renumber_agrees (position? : Nat → Option Nat) (text : String) :
    ∃ pieces, (∀ other, Cut text.toList other ↔ other = pieces) ∧
      pieces.flatMap Piece.chars = text.toList ∧
      indices text = pieces.filterMap Piece.index? ∧
      walk (Text.bytes text) = indices text ∧
      (renumber position? text).toList = pieces.flatMap (Piece.renumbered position?) ∧
      pieces.filterMap (Piece.place? position?) = (indices text).filterMap position? ∧
      indices (renumber position? text) =
        (indices text).filter fun index => (position? index).isNone := by
  have whole := cut_cut text.toList
  have found : indices text = (cut text.toList).filterMap Piece.index? := whole.scan_eq
  refine ⟨cut text.toList, fun _ => cut_iff, whole.flatMap_chars, found, ?_, ?_, ?_,
    indices_renumber text⟩
  · rw [Text.bytes_eq_encode, whole.walk_eq, indices]
  · rw [renumber, String.toList_ofList, whole.renumberChars_eq]
  · rw [found, List.filterMap_filterMap]
    rfl

/-- A percent sign before a mark, zeros in front of an index, and a value that fits no word. -/
example : renumber (fun index => if index = 7 then some 1 else none)
    "%%007é%18446744073709551623%8%7" = "%$1é%18446744073709551623%8$1" := by
  decide +kernel

end SelectCompiler.Placeholder
