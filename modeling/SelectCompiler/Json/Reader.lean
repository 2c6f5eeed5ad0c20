import SelectCompiler.Json.Value
import SelectCompiler.Binary64.Reading
import SelectCompiler.Text.Taken

/-!
JSON text read into values.
-/

namespace SelectCompiler.Json

/-- The four characters that may stand between the parts of a value. -/
def isSpace (c : Char) : Bool :=
  c == ' ' || c == '\t' || c == '\n' || c == '\r'

/-- How deep arrays and objects may be nested. -/
def depthLimit : Nat := 127

/-- The letters that may follow a backslash, with the characters they stand for. -/
def letterEscape? : Char → Option Char
  | '"' => some '"'
  | '\\' => some '\\'
  | '/' => some '/'
  | 'b' => some '\x08'
  | 'f' => some '\x0c'
  | 'n' => some '\n'
  | 'r' => some '\r'
  | 't' => some '\t'
  | _ => none

/-- The character behind a backslash. A 16-bit unit of the upper plane range needs its partner. -/
def escaped? (chars : List Char) : Option (Taken Char chars) :=
  match chars with
  | 'u' :: a :: b :: c :: d :: rest =>
    (Text.hexUnit? a b c d).bind fun unit =>
      if unit < 0xD800 ∨ 0xE000 ≤ unit then 
        some ((Taken.one (Char.ofNat unit) d rest).behind ['u', a, b, c])
      else if 0xDC00 ≤ unit then none
      else
        match rest with
        | '\\' :: 'u' :: e :: f :: g :: h :: rest =>
          (Text.hexUnit? e f g h).bind fun partner =>
            if 0xDC00 ≤ partner ∧ partner < 0xE000 then
              let point := 0x10000 + (unit - 0xD800) * 0x400 + (partner - 0xDC00)
              some ((Taken.one (Char.ofNat point) h rest).behind
                ['u', a, b, c, d, '\\', 'u', e, f, g])
            else none
        | _ => none
  | letter :: rest => (letterEscape? letter).map fun c => .one c letter rest
  | [] => none

/-- The characters up to the closing quote; control characters must be escaped. -/
def quoted? (chars : List Char) : Option (Taken (List Char) chars) :=
  match chars with
  | [] => none
  | '"' :: rest => some (.one [] '"' rest)
  | '\\' :: rest =>
    (escaped? rest).bind fun first =>
      (quoted? first.rest).map fun more =>
        (first.followed (more.map (first.value :: ·))).behind ['\\']
  | c :: rest =>
    if c.toNat < 0x20 then none
    else
      (quoted? rest).map fun more => (more.map (c :: ·)).behind [c]
termination_by chars.length
decreasing_by
  · have := first.shorter
    simp
    omega
  · simp

/-- Take digits into a word as long as they fit, and hand on the digits left over. -/
def absorb (word : Nat) : List Char → Nat × List Char
  | [] => (word, [])
  | digit :: rest =>
    let next := word * 10 + (digit.toNat - '0'.toNat)
    if next < Text.wordSize then absorb next rest else (word, digit :: rest)

/-- The number written by its parts. An integer of the word sizes is kept as it is. Any other
number is its leading digits, as many as fit a word, scaled by a power of ten. -/
def numberOf? (negative : Bool) (whole fraction : List Char) (exponent : Option Int) :
    Option Number :=
  let n := Text.digitsValue whole
  if fraction.isEmpty ∧ exponent.isNone ∧ negative = false ∧ n < Text.wordSize then
    some (.integer n)
  else if fraction.isEmpty ∧ exponent.isNone ∧ negative = true ∧ 0 < n ∧ n ≤ Text.signedLimit then
    some (.integer (-n))
  else
    let (leading, unreadWhole) := absorb 0 whole
    let (word, unreadFraction) := absorb leading fraction
    let places : Int := unreadWhole.length + unreadFraction.length - fraction.length
    (Binary64.powerScaled (Binary64.ofInt word) (exponent.getD 0 + places)).map fun x =>
      .real (x.withSign negative)

/-- An exponent mark, an optional sign and digits; nothing is taken where there is no mark. -/
def exponent? (chars : List Char) : Option (Option Int × List Char) :=
  match chars with
  | mark :: rest =>
    if mark.toLower = 'e' then
      let (negative, rest) :=
        match rest with
        | '-' :: rest => (true, rest)
        | '+' :: rest => (false, rest)
        | rest => (false, rest)
      let digits := rest.takeWhile Char.isDigit
      if digits.isEmpty then none
      else
        let n : Int := Text.digitsValue digits
        some (some (if negative then -n else n), rest.dropWhile Char.isDigit)
    else some (none, chars)
  | [] => some (none, [])

/-- The digits before the point: a zero alone, or digits that do not start with one. -/
def whole? (chars : List Char) : Option (List Char × List Char) :=
  match chars with
  | '0' :: rest =>
    match rest with
    | next :: _ => if next.isDigit then none else some (['0'], rest)
    | [] => some (['0'], rest)
  | chars =>
    let digits := chars.takeWhile Char.isDigit
    if digits.isEmpty then none else some (digits, chars.dropWhile Char.isDigit)

/-- The point and the digits behind it; nothing is taken where there is no point. -/
def fraction? (chars : List Char) : Option (List Char × List Char) :=
  match chars with
  | '.' :: rest =>
    let digits := rest.takeWhile Char.isDigit
    if digits.isEmpty then none else some (digits, rest.dropWhile Char.isDigit)
  | chars => some ([], chars)

def number? (chars : List Char) : Option (Number × List Char) := do
  let (negative, chars) :=
    match chars with
    | '-' :: rest => (true, rest)
    | chars => (false, chars)
  let (whole, chars) ← whole? chars
  let (fraction, chars) ← fraction? chars
  let (exponent, chars) ← exponent? chars
  let number ← numberOf? negative whole fraction exponent
  return (number, chars)

/-- One of the three words. -/
def word? : List Char → Option (Json × List Char)
  | 'n' :: 'u' :: 'l' :: 'l' :: rest => some (.null, rest)
  | 't' :: 'r' :: 'u' :: 'e' :: rest => some (.bool true, rest)
  | 'f' :: 'a' :: 'l' :: 's' :: 'e' :: rest => some (.bool false, rest)
  | _ => none

/-- A word or a number. -/
def scalar? (chars : List Char) : Option (Taken Json chars) :=
  Taken.ofRead? (word? chars <|> (number? chars).map fun (n, rest) => (.number n, rest))

/-- The first character that is no space. -/
def mark? (chars : List Char) : Option (Taken Char chars) :=
  match h : chars.dropWhile isSpace with
  | [] => none
  | c :: rest => some ⟨c, rest, by
      have := (List.dropWhile_sublist isSpace (l := chars)).length_le
      rw [h] at this
      exact this⟩

mutual
/-- A value, with room for `room` levels of nesting. -/
def value? (room : Nat) (chars : List Char) : Option (Taken Json chars) :=
  match mark? chars with
  | none => none
  | some ⟨'"', rest, shorter⟩ =>
    (quoted? rest).map fun ⟨text, behind, _⟩ => ⟨.string (String.ofList text), behind, by omega⟩
  | some ⟨'[', rest, shorter⟩ =>
    if room = 0 then none
    else
      (items? (room - 1) true rest).map fun ⟨items, behind, _⟩ =>
        ⟨.array items, behind, by omega⟩
  | some ⟨'\x7b', rest, shorter⟩ =>
    if room = 0 then none
    else
      (members? (room - 1) true rest).map fun ⟨members, behind, _⟩ =>
        ⟨.object (Members.ofList members), behind, by omega⟩
  | some ⟨c, rest, shorter⟩ =>
    (scalar? (c :: rest)).map fun ⟨value, behind, fewer⟩ =>
      ⟨value, behind, by simp at fewer; omega⟩
termination_by (chars.length, 0)

/-- The items of an array and its closing bracket, which may come at once if `mayClose`. -/
def items? (room : Nat) (mayClose : Bool) (chars : List Char) :
    Option (Taken (List Json) chars) :=
  match mark? chars with
  | some ⟨']', rest, shorter⟩ => if mayClose then some ⟨[], rest, shorter⟩ else none
  | _ =>
    (value? room chars).bind fun ⟨value, rest, _⟩ =>
      match mark? rest with
      | some ⟨']', behind, _⟩ => some ⟨[value], behind, by omega⟩
      | some ⟨',', behind, _⟩ =>
        (items? room false behind).map fun ⟨more, behind, _⟩ =>
          ⟨value :: more, behind, by omega⟩
      | _ => none
termination_by (chars.length, 1)

/-- The members of an object and its closing bracket, which may come at once if `mayClose`. -/
def members? (room : Nat) (mayClose : Bool) (chars : List Char) :
    Option (Taken (List (String × Json)) chars) :=
  match mark? chars with
  | some ⟨'\x7d', rest, shorter⟩ => if mayClose then some ⟨[], rest, shorter⟩ else none
  | some ⟨'"', rest, _⟩ =>
    (quoted? rest).bind fun ⟨key, rest, _⟩ =>
      match mark? rest with
      | some ⟨':', rest, _⟩ =>
        (value? room rest).bind fun ⟨value, rest, _⟩ =>
          let member := (String.ofList key, value)
          match mark? rest with
          | some ⟨'\x7d', behind, _⟩ => some ⟨[member], behind, by omega⟩
          | some ⟨',', behind, _⟩ =>
            (members? room false behind).map fun ⟨more, behind, _⟩ =>
              ⟨member :: more, behind, by omega⟩
          | _ => none
      | _ => none
  | _ => none
termination_by (chars.length, 1)
end

/-- The value that a whole text writes. -/
def ofText? (text : String) : Option Json :=
  (value? depthLimit text.toList).bind fun read =>
    if read.rest.all isSpace then some read.value else none

end SelectCompiler.Json
