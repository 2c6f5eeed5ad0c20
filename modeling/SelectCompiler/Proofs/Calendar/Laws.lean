import SelectCompiler.Calendar.Readers
import SelectCompiler.Proofs.Calendar.Days
import SelectCompiler.Proofs.Text.Numeral

/-!
What is asked of those who read dates and timestamps. A text written by a layout, with all the
digits of its numbers, is read as what these numbers make, and a text that departs from a layout is
not read by it; in the internet form a clock and its distance from universal time are read. Nothing
is asked about other texts.
-/

namespace SelectCompiler

namespace Calendar

/-- Digits, as many as the width says, that write the number. -/
structure IsNumeral (width n : Nat) (digits : List Char) : Prop where
  positive : 0 < width
  length : digits.length = width
  digit : ∀ c ∈ digits, c.isDigit = true
  value : Text.digitsValue digits = n

theorem toList_padded (width n : Nat) :
    (padded width n).toList = List.replicate (width - n.repr.length) '0' ++ n.repr.toList := by
  rw [padded, String.toList_append, String.toList_ofList]

theorem isDigit_of_mem_padded {width n : Nat} :
    ∀ c ∈ (padded width n).toList, c.isDigit = true := by
  rw [toList_padded, List.forall_mem_append]
  refine ⟨?_, Text.isDigit_of_mem_repr⟩
  intro c member
  rw [List.eq_of_mem_replicate member]
  rfl

theorem visible_padded {width n : Nat} :
    ∀ c ∈ (padded width n).toList, Text.isBlank c = false :=
  fun c member => Text.isBlank_of_isDigit (isDigit_of_mem_padded c member)

theorem isNumeral_padded {width n : Nat} (positive : 0 < width) (small : n < Nat.pow 10 width) :
    IsNumeral width n (padded width n).toList := by
  have fits : n.repr.length ≤ width := by
    rw [← String.length_toList, Nat.toList_repr]
    exact (Nat.length_toDigits_le_iff (by decide) positive).mpr small
  refine ⟨positive, ?_, isDigit_of_mem_padded, ?_⟩
  · rw [toList_padded, List.length_append, List.length_replicate, String.length_toList]
    omega
  · rw [toList_padded, Text.digitsValue, Nat.ofDigitChars_append,
      Nat.ofDigitChars_replicate_zero, Nat.mul_zero]
    exact Text.digitsValue_repr

theorem isNumeral_two {n : Nat} (small : n < 100) : IsNumeral 2 n (padded 2 n).toList :=
  isNumeral_padded (by decide) small

theorem isNumeral_four {n : Nat} (small : n < 10000) : IsNumeral 4 n (padded 4 n).toList :=
  isNumeral_padded (by decide) small

theorem IsNumeral.exists_first {width n : Nat} {digits : List Char}
    (numeral : IsNumeral width n digits) :
    ∃ c others, digits = c :: others ∧ c.isDigit = true := by
  obtain ⟨c, others, split⟩ := List.exists_cons_of_length_pos
    (Nat.lt_of_lt_of_eq numeral.positive numeral.length.symm)
  exact ⟨c, others, split, numeral.digit c (by rw [split]; exact List.mem_cons_self)⟩

/-- Numbers that are written with four digits for the year and two for each other. -/
structure Fields.Writable (fields : Fields) : Prop where
  year : 0 ≤ fields.year ∧ fields.year ≤ 9999
  month : fields.month < 100
  day : fields.day < 100
  hour : fields.hour < 100
  minute : fields.minute < 100
  second : fields.second < 100
  nanosecond : fields.nanosecond = 0

theorem Fields.Writable.isNumeral_year {fields : Fields} (writable : fields.Writable) :
    IsNumeral 4 fields.year.toNat (padded 4 fields.year.toNat).toList := by
  obtain ⟨least, most⟩ := writable.year
  exact isNumeral_four (by omega)

namespace LayoutItem

/-- An item of a layout with all its digits; of blanks one is enough. -/
def write (fields : Fields) : LayoutItem → List Char
  | .year => (padded 4 fields.year.toNat).toList
  | .month => (padded 2 fields.month).toList
  | .day => (padded 2 fields.day).toList
  | .hour => (padded 2 fields.hour).toList
  | .minute => (padded 2 fields.minute).toList
  | .second => (padded 2 fields.second).toList
  | .literal c => [c]
  | .blanks => [' ']

/-- How many characters an item takes when it is written. -/
def width : LayoutItem → Nat
  | .year => 4
  | .month | .day | .hour | .minute | .second => 2
  | .literal _ | .blanks => 1

/-- The item is a number or a character that is not blank. -/
def isTight : LayoutItem → Bool
  | .literal c => !Text.isBlank c
  | .blanks => false
  | .year | .month | .day | .hour | .minute | .second => true

/-- The item stands between numbers: blanks, or a character that is not blank. -/
def isGap : LayoutItem → Bool
  | .literal c => !Text.isBlank c
  | .blanks => true
  | .year | .month | .day | .hour | .minute | .second => false

/-- The item is a number of two digits. -/
def isShort : LayoutItem → Bool
  | .month | .day | .hour | .minute | .second => true
  | .year | .literal _ | .blanks => false

theorem isNumeral_write {fields : Fields} (writable : fields.Writable) {item : LayoutItem}
    (number : item ∈ plainDate ++ plainTime) :
    ∃ n, IsNumeral item.width n (item.write fields) := by
  cases item with
  | year => exact ⟨_, writable.isNumeral_year⟩
  | month => exact ⟨_, isNumeral_two writable.month⟩
  | day => exact ⟨_, isNumeral_two writable.day⟩
  | hour => exact ⟨_, isNumeral_two writable.hour⟩
  | minute => exact ⟨_, isNumeral_two writable.minute⟩
  | second => exact ⟨_, isNumeral_two writable.second⟩
  | literal c | blanks => simp [plainDate, plainTime] at number

end LayoutItem

/-- The text that a layout makes of numbers. -/
def write (fields : Fields) (layout : List LayoutItem) : String :=
  String.ofList (layout.flatMap (LayoutItem.write fields))

section Write

variable (fields : Fields)

theorem toList_write (layout : List LayoutItem) :
    (write fields layout).toList = layout.flatMap (LayoutItem.write fields) :=
  String.toList_ofList

theorem write_append (first second : List LayoutItem) :
    write fields (first ++ second) = write fields first ++ write fields second := by
  rw [write, List.flatMap_append, String.ofList_append]
  rfl

theorem write_cons (item : LayoutItem) (rest : List LayoutItem) :
    write fields (item :: rest) = write fields [item] ++ write fields rest :=
  write_append fields [item] rest

end Write

/-- What stands behind the time of day in the internet form: the mark of universal time, or how
far the clock is ahead of it or behind it. -/
inductive Zone where
  | universal
  | ahead (hours minutes : Nat)
  | behind (hours minutes : Nat)

namespace Zone

def write : Zone → String
  | .universal => "Z"
  | .ahead hours minutes => "+" ++ padded 2 hours ++ ":" ++ padded 2 minutes
  | .behind hours minutes => "-" ++ padded 2 hours ++ ":" ++ padded 2 minutes

/-- Hours and minutes have two digits. -/
def Writable : Zone → Prop
  | .universal => True
  | .ahead hours minutes | .behind hours minutes => hours < 100 ∧ minutes < 100

/-- The minutes by which the clock is ahead of universal time: less than a day. -/
def minutes? : Zone → Option Int
  | .universal => some 0
  | .ahead hours minutes =>
    if hours < 24 ∧ minutes < 60 then some (hours * 60 + minutes : Nat) else none
  | .behind hours minutes =>
    if hours < 24 ∧ minutes < 60 then some (-(hours * 60 + minutes : Nat)) else none

end Zone

/-- Reading by layouts undoes writing by them. The numbers that are needed to make something are
those of the year and of what else the result has. -/
structure FollowsLayouts {α : Type} (needed : List LayoutItem) (make : Fields → Option α)
    (read : List LayoutItem → String → Option α) : Prop where
  /-- Numbers with all their digits, and what stands between them, are read as they are written.
  Numbers that make nothing are refused. -/
  written : ∀ {fields : Fields} {layout : List LayoutItem}, fields.Writable → needed ⊆ layout →
    (∀ item ∈ layout, item ∈ needed ∨ item.isGap = true) →
    read layout (write fields layout) = make fields
  /-- A character of a layout stands for itself alone. -/
  literal : ∀ {fields : Fields} (front : List LayoutItem) {c : Char} (rest : List LayoutItem)
    (tail : String), fields.Writable → (∀ item ∈ front, item.isTight = true) →
    tail.toList.head? ≠ some c →
    read (front ++ .literal c :: rest) (write fields front ++ tail) = none
  /-- A number of two digits begins with a digit; there may be blanks in front of it. -/
  number : ∀ {fields : Fields} (front gap : List LayoutItem) {item : LayoutItem}
    (rest : List LayoutItem) (tail : String), fields.Writable →
    (∀ item ∈ front, item.isTight = true) → (∀ item ∈ gap, item = .blanks) →
    item.isShort = true →
    (∀ c ∈ tail.toList.head?, c.isDigit = false ∧ Text.isBlank c = false) →
    read (front ++ gap ++ item :: rest) (write fields front ++ tail) = none
  /-- Nothing may be left of the text behind the last item. -/
  whole : ∀ {fields : Fields} {layout : List LayoutItem} {tail : String}, fields.Writable →
    (∀ item ∈ layout, item.isTight = true) → tail ≠ "" →
    read layout (write fields layout ++ tail) = none

/-- The documented behaviour of readers, as far as it is relied on. -/
structure Readers.Lawful (readers : Readers) : Prop where
  dates : FollowsLayouts plainDate Fields.date? readers.date?
  timestamps : FollowsLayouts (plainDate ++ plainTime) Fields.timestamp? readers.timestamp?
  /-- In the internet form the clock is read as it is written, if its numbers make a timestamp, with
  the distance from universal time behind it, if that is less than a day. -/
  zoned : ∀ {fields : Fields} {zone : Zone}, fields.Writable → zone.Writable →
    readers.zoned? (write fields (dashedDate ++ .literal 'T' :: colonTime) ++ zone.write) =
      fields.timestamp?.bind fun clock => zone.minutes?.map fun ahead => ⟨clock, ahead⟩
  /-- In the internet form the clock, which takes nineteen characters, does not stand alone. -/
  form : ∀ {text : String} {zoned : Zoned}, readers.zoned? text = some zoned →
    19 < text.toList.length
  /-- Universal time is as many minutes before the clock as the clock is ahead of it. -/
  universal : ∀ zoned : Zoned, 0 ≤ zoned.clock.date.year → zoned.clock.date.year ≤ 9999 →
    -1440 < zoned.ahead → zoned.ahead < 1440 →
    (readers.universal zoned).Precedes zoned.clock zoned.ahead

end Calendar

end SelectCompiler
