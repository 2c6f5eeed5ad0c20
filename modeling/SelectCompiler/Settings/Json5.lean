import SelectCompiler.Json.Reader
import SelectCompiler.Settings.Value
import SelectCompiler.Text.Blank

/-!
Settings in JSON5: JSON with comments, commas behind last items, names without quotes, texts in
quotes of both kinds, and more ways to write numbers.
-/

namespace SelectCompiler.Json5

def isLineEnd (c : Char) : Bool := c == '\n' || c == '\r' || c == '\u2028' || c == '\u2029'

def isSpace (c : Char) : Bool := (Text.isBlank c && c != '\u0085') || c == '\ufeff'

/-- What a gap between the parts of a value consists of. -/
inductive Gap where
  | space
  | lineComment
  | blockComment

/-- What stands behind spaces and comments. -/
def afterGap? : Gap → List Char → Option (List Char)
  | .blockComment, [] => none
  | _, [] => some []
  | .space, '/' :: '/' :: rest => afterGap? .lineComment rest
  | .space, '/' :: '*' :: rest => afterGap? .blockComment rest
  | .space, c :: rest => if isSpace c then afterGap? .space rest else some (c :: rest)
  | .lineComment, c :: rest => afterGap? (if isLineEnd c then .space else .lineComment) rest
  | .blockComment, '*' :: '/' :: rest => afterGap? .space rest
  | .blockComment, _ :: rest => afterGap? .blockComment rest

/-- The first character behind a gap. -/
def mark? (chars : List Char) : Option (Taken Char chars) := Taken.head? (afterGap? .space chars)

/-- What a backslash and the characters behind it stand for; before a line end, for nothing. -/
def escaped? (chars : List Char) : Option (Taken (List Char) chars) :=
  match chars with
  | '\r' :: '\n' :: rest => some ((Taken.one [] '\n' rest).behind ['\r'])
  | 'x' :: a :: b :: rest =>
    ((Text.inBase? 16 [a, b]).bind Text.character?).map fun found =>
      (Taken.one [found] b rest).behind ['x', a]
  | '0' :: rest => some (.one ['\x00'] '0' rest)
  | 'v' :: rest => some (.one ['\x0b'] 'v' rest)
  | c :: rest =>
    if isLineEnd c then some (.one [] c rest)
    else if c = 'u' then (Json.escaped? (c :: rest)).map fun found => found.map ([·])
    else if c = 'x' || c.isDigit then none
    else some (.one [(Json.letterEscape? c).getD c] c rest)
  | [] => none

/-- The characters up to the closing quote. -/
def quoted? (quote : Char) (chars : List Char) : Option (Taken (List Char) chars) :=
  match chars with
  | [] => none
  | '\\' :: rest =>
    (escaped? rest).bind fun first =>
      (quoted? quote first.rest).map fun more =>
        (first.followed (more.map (first.value ++ ·))).behind ['\\']
  | c :: rest =>
    if c = quote then some (.one [] c rest)
    else if isLineEnd c then none
    else (quoted? quote rest).map fun more => (more.map (c :: ·)).behind [c]
termination_by chars.length
decreasing_by
  · have := first.shorter
    simp
    omega
  · simp

/-- A decimal with an optional sign. It is an integer unless it has a point or an exponent. -/
def decimal? (chars : List Char) : Option SettingValue :=
  let negative := chars.head? == some '-'
  let digits := if negative || chars.head? == some '+' then chars.drop 1 else chars
  let twoDigits := (digits.take 2).length == 2 && (digits.take 2).all Char.isDigit
  if digits.head? == some '0' && twoDigits then none
  else if digits.any fun c => c == '.' || c.toLower == 'e' then
    ((Binary64.decimal? digits).map (Binary64.ofDecimal negative)).bind fun x =>
      if x.isInfinite then none else some (.real x)
  else (Text.signed? (String.ofList chars)).map .integer

/-- The value of hexadecimal digits, which has to fit 32 bits. -/
def hexadecimal? (digits : List Char) : Option SettingValue := do
  let n ← Text.inBase? 16 digits
  if n < Nat.pow 2 32 then some (.integer n) else none

/-- A truth value, nothing, or a number. -/
def word? (chars : List Char) : Option SettingValue :=
  match String.ofList chars with
  | "null" => some .unfit
  | "true" => some (.bool true)
  | "false" => some (.bool false)
  | "Infinity" => some (.real (.infinity false))
  | "-Infinity" => some (.real (.infinity true))
  | "NaN" | "-NaN" => some (.real .nan)
  | _ =>
    match chars with
    | '0' :: 'x' :: digits | '0' :: 'X' :: digits => hexadecimal? digits
    | chars => decimal? chars

def isWordChar (c : Char) : Bool := c.isAlphanum || c == '+' || c == '-' || c == '.'

/-- Letters, digits, `$`, `_` and all that is not ASCII and no space. -/
def isNameChar (c : Char) : Bool :=
  c.isAlphanum || c == '$' || c == '_' || (127 < c.toNat && !isSpace c)

/-- A name without quotes. -/
def name? (chars : List Char) : Option (Taken (List Char) chars) :=
  match chars with
  | [] => none
  | '\\' :: rest =>
    if rest.head? = some 'u' then
      (escaped? rest).bind fun first =>
        match name? first.rest with
        | some more => some ((first.followed (more.map (first.value ++ ·))).behind ['\\'])
        | none => some (first.behind ['\\'])
    else none
  | c :: rest =>
    if isNameChar c then
      match name? rest with
      | some more => some ((more.map (c :: ·)).behind [c])
      | none => some (.one [c] c rest)
    else none
termination_by chars.length
decreasing_by
  · have := first.shorter
    simp
    omega
  · simp

/-- The key of a member. -/
def key? (chars : List Char) : Option (Taken String chars) :=
  match chars with
  | '"' :: rest => (quoted? '"' rest).map fun key => (key.map String.ofList).behind ['"']
  | '\'' :: rest => (quoted? '\'' rest).map fun key => (key.map String.ofList).behind ['\'']
  | c :: rest =>
    if c.isDigit then none else (name? (c :: rest)).map fun key => key.map String.ofList
  | [] => none

mutual
def value? (chars : List Char) : Option (Taken SettingValue chars) :=
  match mark? chars with
  | none => none
  | some ⟨'[', rest, _⟩ => (items? rest).map fun ⟨_, behind, _⟩ => ⟨.unfit, behind, by omega⟩
  | some ⟨'\x7b', rest, _⟩ => 
    (members? rest).map fun ⟨members, behind, _⟩ =>
      ⟨if members.isEmpty then .emptyTable else .unfit, behind, by omega⟩
  | some ⟨c, rest, _⟩ =>
    if c = '"' ∨ c = '\'' then
      (quoted? c rest).map fun ⟨text, behind, _⟩ => ⟨.text (String.ofList text), behind, by omega⟩
    else
      let found? : Option (Taken SettingValue (c :: rest)) :=
        Taken.ofRead? ((word? ((c :: rest).takeWhile isWordChar)).map fun value =>
          (value, (c :: rest).dropWhile isWordChar))
      found?.map fun ⟨value, behind, _⟩ => ⟨value, behind, by simp at *; omega⟩
termination_by 2 * chars.length

/-- The items of an array and its closing bracket. -/
def items? (chars : List Char) : Option (Taken Unit chars) :=
  match mark? chars with
  | some ⟨']', rest, shorter⟩ => some ⟨(), rest, shorter⟩
  | _ =>
    (value? chars).bind fun ⟨_, rest, _⟩ =>
      match mark? rest with
      | some ⟨']', behind, _⟩ => some ⟨(), behind, by omega⟩
      | some ⟨',', behind, _⟩ => (items? behind).map fun ⟨_, behind, _⟩ => ⟨(), behind, by omega⟩
      | _ => none
termination_by 2 * chars.length + 1

/-- The members of an object and its closing bracket. -/
def members? (chars : List Char) : Option (Taken (List (String × SettingValue)) chars) :=
  match mark? chars with
  | none => none
  | some ⟨'\x7d', rest, shorter⟩ => some ⟨[], rest, shorter⟩
  | some ⟨c, rest, _⟩ =>
    (key? (c :: rest)).bind fun ⟨key, rest, _⟩ =>
      match mark? rest with
      | some ⟨':', rest, _⟩ =>
        (value? rest).bind fun ⟨value, rest, _⟩ =>
          match mark? rest with
          | some ⟨'\x7d', behind, _⟩ => some ⟨[(key, value)], behind, by simp at *; omega⟩
          | some ⟨',', behind, _⟩ =>
            (members? behind).map fun ⟨more, behind, _⟩ =>
              ⟨(key, value) :: more, behind, by simp at *; omega⟩
          | _ => none
      | _ => none
termination_by 2 * chars.length + 1
decreasing_by
  · simp at *
    omega
  · simp at *
    omega
end

/-- The members of a text, which has to be an object. -/
def read? (text : String) : Option (List (String × SettingValue)) := do
  let opening ← mark? text.toList
  if opening.value ≠ '\x7b' then none
  let members ← members? opening.rest
  let behind ← afterGap? .space members.rest
  if behind.isEmpty then some members.value else none

end SelectCompiler.Json5
