import SelectCompiler.Text.Numeral

/-!
Placeholders in SQL text: a percent sign and the longest run of digits behind it. A run that does
not fit a word, and a percent sign without digits, are text like any other.
-/

namespace SelectCompiler.Placeholder

/-- The digits at the front. -/
def leadingDigits (chars : List Char) : List Char := chars.takeWhile Char.isDigit

/-- The placeholder of the given index. -/
def write (index : Nat) : String := "%" ++ index.repr

/-- The indices of the placeholders in a text, in order. -/
def scan : List Char → List Nat
  | [] => []
  | c :: rest =>
    if c = '%' then (Text.word? (leadingDigits rest)).toList ++ scan rest else scan rest

def indices (sql : String) : List Nat := scan sql.toList

/-- Write `$k` for every placeholder whose index has position `k`; all other text is kept. -/
def renumberChars (position? : Nat → Option Nat) : List Char → List Char
  | [] => []
  | c :: rest =>
    if c = '%' then
      match (Text.word? (leadingDigits rest)).bind position? with
      | some position =>
        ('$' :: position.repr.toList) ++ renumberChars position? (rest.dropWhile Char.isDigit)
      | none => c :: renumberChars position? rest
    else c :: renumberChars position? rest
termination_by chars => chars.length
decreasing_by
  · have := (List.dropWhile_sublist Char.isDigit (l := rest)).length_le
    simp
    omega
  · simp
  · simp

def renumber (position? : Nat → Option Nat) (sql : String) : String :=
  String.ofList (renumberChars position? sql.toList)

/-- The position of an index in a list, counted from one; of several the last. -/
def lastPosition? (allocated : List Nat) (index : Nat) : Option Nat :=
  (allocated.zipIdx 1).reverse.lookup index

end SelectCompiler.Placeholder
