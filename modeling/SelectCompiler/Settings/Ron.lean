import SelectCompiler.Settings.Value
import SelectCompiler.Text.Blank
import SelectCompiler.Text.Taken

/-!
Settings in RON: the fields of a structure in round brackets, named or not, or the entries of a map
in curly ones.
-/

namespace SelectCompiler.Ron

/-- What stands behind spaces and comments; `depth` block comments have been opened, or a comment up
to the end of the line if `inLine`. -/
def afterGap? (depth : Nat) (inLine : Bool) : List Char → Option (List Char)
  | [] => if depth = 0 then some [] else none
  | '/' :: '*' :: rest =>
    if inLine then afterGap? depth true ('*' :: rest) else afterGap? (depth + 1) false rest
  | '*' :: '/' :: rest =>
    if inLine then afterGap? depth true ('/' :: rest)
    else if depth = 0 then some ('*' :: '/' :: rest)
    else afterGap? (depth - 1) false rest
  | '/' :: '/' :: rest =>
    if 0 < depth then afterGap? depth false ('/' :: rest) else afterGap? 0 true rest
  | c :: rest =>
    if inLine then afterGap? 0 (c != '\n') rest
    else if 0 < depth ∨ Text.isBlank c then afterGap? depth false rest
    else some (c :: rest)

/-- The first character behind a gap. -/
def mark? (chars : List Char) : Option (Taken Char chars) := Taken.head? (afterGap? 0 false chars)

/-- The letters that may follow a backslash, with the characters they stand for. -/
def letterEscape? : Char → Option Char
  | '\'' => some '\''
  | '"' => some '"'
  | '\\' => some '\\'
  | 'n' => some '\n'
  | 'r' => some '\r'
  | 't' => some '\t'
  | '0' => some '\x00'
  | _ => none

/-- The character behind a backslash. -/
def escaped? (chars : List Char) : Option (Taken Char chars) :=
  match chars with
  | 'x' :: a :: b :: rest =>
    ((Text.inBase? 16 [a, b]).bind Text.character?).map fun found =>
      (Taken.one found b rest).behind ['x', a]
  | 'u' :: '\x7b' :: rest =>
    let digits := rest.takeWhile (· != '\x7d')
    if 6 < digits.length then none
    else
      Taken.ofRead? (((Text.inBase? 16 digits).bind Text.character?).map fun found =>
        (found, rest.drop (digits.length + 1)))
  | letter :: rest => (letterEscape? letter).map fun found => .one found letter rest
  | [] => none

/-- The characters up to the closing quote. -/
def quoted? (chars : List Char) : Option (Taken (List Char) chars) :=
  match chars with
  | [] => none
  | '"' :: rest => some (.one [] '"' rest)
  | '\\' :: rest =>
    (escaped? rest).bind fun first =>
      (quoted? first.rest).map fun more =>
        (first.followed (more.map (first.value :: ·))).behind ['\\']
  | c :: rest => (quoted? rest).map fun more => (more.map (c :: ·)).behind [c]
termination_by chars.length
decreasing_by
  · have := first.shorter
    simp
    omega
  · simp

/-- The characters up to a closing double quote with some hashes behind it. -/
def raw? (hashes : Nat) (chars : List Char) : Option (List Char × List Char) :=
  match chars with
  | [] => none
  | c :: rest =>
    if c = '"' ∧ rest.take hashes = List.replicate hashes '#' then some ([], rest.drop hashes)
    else (raw? hashes rest).map fun (more, behind) => (c :: more, behind)

/-- What stands behind the letter of a text without escapes. -/
def rawQuoted? (chars : List Char) : Option (List Char × List Char) :=
  let hashes := chars.takeWhile (· == '#')
  match chars.dropWhile (· == '#') with
  | '"' :: rest => raw? hashes.length rest
  | _ => none

/-- One character and its closing quote. -/
def single? (chars : List Char) : Option (Taken Char chars) :=
  match chars with
  | '\\' :: rest =>
    (escaped? rest).bind fun found =>
      match h : found.rest with
      | '\'' :: behind => some ⟨found.value, behind, by
          have := found.shorter
          rw [h] at this
          simp at *
          omega⟩
      | _ => none
  | c :: '\'' :: rest => some ⟨c, rest, by simp only [List.length_cons]; omega⟩
  | _ => none

/-- The value of digits of a base; underscores may stand behind the first. -/
def inBase? (base : Nat) (chars : List Char) : Option Nat :=
  if chars.head? = some '_' then none else Text.inBase? base (chars.filter (· != '_'))

def integer? (chars : List Char) : Option Nat :=
  match chars with
  | '0' :: 'x' :: digits => inBase? 16 digits
  | '0' :: 'o' :: digits => inBase? 8 digits
  | '0' :: 'b' :: digits => inBase? 2 digits
  | digits => inBase? 10 digits

/-- A number without its sign. Integers beyond a signed word lose their exact size. -/
def unsigned? (negative : Bool) (chars : List Char) : Option SettingValue :=
  match integer? chars with
  | some n =>
    let n : Int := if negative then -n else n
    some (if -Text.signedLimit ≤ n ∧ n < Text.signedLimit then .integer n else .real (.ofInt n))
  | none =>
    if String.ofList chars == "inf" then some (.real (.infinity negative))
    else
      (Binary64.decimal? (chars.filter (· != '_'))).map fun d => .real (.ofDecimal negative d)

/-- A truth value, a number, or a name alone, which is nothing that a setting takes. -/
def word? (chars : List Char) : Option SettingValue :=
  match chars with
  | '-' :: rest => unsigned? true rest
  | '+' :: rest => unsigned? false rest
  | chars =>
    match String.ofList chars with
    | "true" => some (.bool true)
    | "false" => some (.bool false)
    | "NaN" => some (.real .nan)
    | word =>
      (unsigned? false chars) <|>
        if word.toList.head?.any fun c => c.isAlpha || c == '_' then some .unfit else none

def isNameChar (c : Char) : Bool := c.isAlphanum || c == '_'

def isWordChar (c : Char) : Bool := isNameChar c || c == '.' || c == '+' || c == '-'

/-- Whether a field of a structure follows: a name and a colon. -/
def startsField (chars : List Char) : Bool :=
  match mark? chars with
  | some ⟨c, rest, _⟩ =>
    isNameChar c && !c.isDigit && (mark? (rest.dropWhile isNameChar)).any (·.value == ':')
  | none => false

/-- A value, or the members of a structure or a map. -/
inductive Content where
  | value (setting : SettingValue)
  | members (pairs : List (String × SettingValue))

/-- Structures and maps are nothing that a setting takes. -/
def Content.setting : Content → SettingValue
  | value setting => setting
  | members [] => .emptyTable
  | members _ => .unfit

mutual
def content? (chars : List Char) : Option (Taken Content chars) :=
  match mark? chars with
  | none => none
  | some ⟨'[', rest, fewer⟩ =>
    (items? ']' false rest).map fun found => (found.map fun _ => .value .unfit).beyond fewer
  | some ⟨'\x7b', rest, fewer⟩ =>
    (items? '\x7d' true rest).map fun found => (found.map .members).beyond fewer
  | some ⟨'(', rest, fewer⟩ =>
    (items? ')' (startsField rest) rest).map fun found =>
      (found.map fun pairs =>
        if startsField rest then .members pairs else .value .unfit).beyond fewer
  | some ⟨'"', rest, fewer⟩ =>
    (quoted? rest).map fun found =>
      (found.map fun text => .value (.text (String.ofList text))).beyond fewer
  | some ⟨'\'', rest, fewer⟩ =>
    (single? rest).map fun found =>
      (found.map fun c => .value (.text (String.singleton c))).beyond fewer
  | some ⟨c, rest, fewer⟩ =>
    if c = 'r' ∧ (rest.head? = some '"' ∨ rest.head? = some '#') then
      let text? : Option (Taken (List Char) rest) := Taken.ofRead? (rawQuoted? rest)
      text?.map fun found =>
        (found.map fun text => .value (.text (String.ofList text))).beyond fewer
    else if isWordChar c then
      let word := c :: rest.takeWhile isWordChar
      have : (rest.dropWhile isWordChar).length ≤ rest.length :=
        (List.dropWhile_sublist isWordChar).length_le
      match mark? (rest.dropWhile isWordChar) with
      | some ⟨'(', inner, _⟩ =>
        if word.all isNameChar && !c.isDigit then
          (items? ')' (startsField inner) inner).bind fun ⟨pairs, behind, _⟩ =>
            let content : Content :=
              if String.ofList word == "Some" then
                match pairs with
                | [pair] => .value pair.2
                | _ => .value .unfit
              else if startsField inner then .members pairs
              else .value .unfit
            some ⟨content, behind, by omega⟩
        else none
      | _ =>
        (word? word).map fun value => ⟨.value value, rest.dropWhile isWordChar, by omega⟩
    else none
termination_by (chars.length, 0)

/-- Values up to a closing bracket, each behind a key and a colon if `keyed`; a comma may stand
behind the last. -/
def items? (closing : Char) (keyed : Bool) (chars : List Char) :
    Option (Taken (List (String × SettingValue)) chars) :=
  match mark? chars with
  | none => none
  | some ⟨c, rest, _⟩ =>
    if c = closing then some ⟨[], rest, by omega⟩
    else
      (item? closing keyed (c :: rest)).bind fun ⟨pair, rest, _⟩ =>
        match mark? rest with
        | none => none
        | some ⟨mark, behind, _⟩ =>
          if mark = closing then some ⟨[pair], behind, by simp at *; omega⟩
          else if mark = ',' then
            (items? closing keyed behind).map fun ⟨more, last, _⟩ =>
              ⟨pair :: more, last, by simp at *; omega⟩
          else none
termination_by (chars.length, 2)
decreasing_by
  · simp at *
    omega
  · simp at *
    omega

/-- One value, behind a key and a colon if `keyed`. The keys of structures are names, and those of
maps have to be texts. -/
def item? (closing : Char) (keyed : Bool) (chars : List Char) :
    Option (Taken (String × SettingValue) chars) :=
  if keyed then
    let key? : Option (Taken SettingValue chars) :=
      if closing = ')' then
        Taken.ofRead? (some (.text (String.ofList (chars.takeWhile isNameChar)),
          chars.dropWhile isNameChar))
      else (content? chars).map fun key => key.map Content.setting
    key?.bind fun ⟨key, rest, _⟩ =>
      match key, mark? rest with
      | .text key, some ⟨':', rest, _⟩ =>
        (content? rest).map fun ⟨content, behind, _⟩ => ⟨(key, content.setting), behind, by omega⟩
      | _, _ => none
  else
    (content? chars).map fun ⟨content, behind, fewer⟩ => ⟨("", content.setting), behind, fewer⟩
termination_by (chars.length, 1)
end

/-- What stands behind a word and the gap before it. -/
def behindWord? (word : String) (chars : List Char) : Option (List Char) :=
  (afterGap? 0 false chars).bind fun chars =>
    if word.toList.isPrefixOf chars then some (chars.drop word.length) else none

/-- The names of what a text may ask for at its front; none of it changes how settings are read. -/
def features : List String := ["unwrap_newtypes", "implicit_some", "unwrap_variant_newtypes"]

/-- What stands behind a list of features in its brackets; a comma may stand behind the last. -/
def afterFeatures? (chars : List Char) : Option (List Char) := do
  let behind ←
    ["#", "!", "[", "enable", "("].foldlM (fun chars word => behindWord? word chars) chars
  let names := ((behind.takeWhile (· != ')')).splitOnP (· == ',')).map Text.trimmed
  let names := if names.getLast? = some [] then names.dropLast else names
  if names.isEmpty || names.any fun name => !features.contains (String.ofList name) then none
  else
    let behind ← behindWord? ")" (behind.dropWhile (· != ')'))
    behindWord? "]" behind

/-- What stands behind all lists of features and the gaps there. -/
def afterHeader? (chars : List Char) : Option (List Char) :=
  match mark? chars with
  | some ⟨'#', _, _⟩ =>
    let behind? : Option (Taken Unit chars) :=
      Taken.ofRead? ((afterFeatures? chars).map fun behind => ((), behind))
    behind?.bind fun ⟨_, behind, _⟩ => afterHeader? behind
  | _ => some chars
termination_by chars.length

/-- The fields or entries of a text. -/
def read? (text : String) : Option (List (String × SettingValue)) := do
  let content ← content? (← afterHeader? text.toList)
  let behind ← afterGap? 0 false content.rest
  match behind, content.value with
  | [], .members pairs => some pairs
  | _, _ => none

end SelectCompiler.Ron
