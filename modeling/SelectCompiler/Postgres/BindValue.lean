import SelectCompiler.Calendar.Reading
import SelectCompiler.Binary64.Reading
import SelectCompiler.Text.Hidden
import SelectCompiler.Where.Clause

/-!
Parameter values as what they are bound as. The type hint of a parameter says what its JSON value,
or the text in it, has to be.
-/

namespace SelectCompiler

inductive BindValue where
  | int (n : Int)
  | float (x : Binary64)
  | bool (value : Bool)
  | text (content : String)
  | date (value : Date)
  | timestamp (value : Timestamp)
  deriving DecidableEq

namespace BindValue

/-- A signed word: an integer in range, its text, or a truth value as one or zero. -/
def integer? : Json → Option Int
  | .number (.integer n) => if -Text.signedLimit ≤ n ∧ n < Text.signedLimit then some n else none
  | .string content => Text.signed? (Text.trim content)
  | .bool value => some (if value then 1 else 0)
  | _ => none

/-- A number of 64 bits: the nearest to an integer, a number as it is, or a text. -/
def float? : Json → Option Binary64
  | .number (.integer n) => some (.ofInt n)
  | .number (.real x) => some x
  | .string content => Binary64.ofText? (Text.trim content)
  | _ => none

/-- A truth value: itself, one or zero, or a text for either in any case. -/
def bool? : Json → Option Bool
  | .bool value => some value
  | .number (.integer n) => if n = 0 then some false else if n = 1 then some true else none
  | .string content =>
    match (Text.trim content).toLower with
    | "1" | "true" => some true
    | "0" | "false" => some false
    | _ => none
  | _ => none

/-- The trimmed text of a string. -/
def text? : Json → Option String
  | .string content => some (Text.trim content)
  | _ => none

/-- The text that a scalar is bound as when no other type is asked for. -/
def scalarText? : Json → Option String
  | .string content => some content
  | .number n => some n.write
  | .bool value => some (if value then "true" else "false")
  | _ => none

/-- The value that a hint makes of a JSON value. -/
def ofJson? (readers : Calendar.Readers) (hint : TypeHint) (value : Json) : Option BindValue :=
  match hint with
  | .integer | .int => (integer? value).map .int
  | .positive => ((integer? value).filter fun n => decide (0 < n)).map .int
  | .boolean => (bool? value).map .bool
  | .float | .money => (float? value).map .float
  | .date => ((text? value).bind (Date.ofText? readers)).map .date
  | .timestamp => ((text? value).bind (Timestamp.ofText? readers)).map .timestamp
  | .string | .memo | .link | .other _ => (scalarText? value).map .text

/-- What a hint asks for. -/
def expectation : TypeHint → Expectation
  | .integer | .int => .integer
  | .positive => .positiveInteger
  | .boolean => .boolean
  | .float | .money => .number
  | .date => .date
  | .timestamp => .timestamp
  | .string | .memo | .link | .other _ => .scalar

/-- The value of a parameter, with dates and timestamps as the readers read them. -/
def ofParameter (parameter : Where.Parameter) (readers : Calendar.Readers := Calendar.readers) :
    Except Error BindValue :=
  match ofJson? readers parameter.hint parameter.value with
  | some value => .ok value
  | none =>
    .error (.parameterType parameter.index parameter.hint.name (expectation parameter.hint)
      parameter.value)

/-- How a character is shown inside quotes. -/
def shownChar (c : Char) : String :=
  match c with
  | '"' => "\\\""
  | '\\' => "\\\\"
  | '\t' => "\\t"
  | '\r' => "\\r"
  | '\n' => "\\n"
  | '\x00' => "\\0"
  | c =>
    if Text.isHidden c then "\\u\x7b" ++ String.ofList (Nat.toDigits 16 c.toNat) ++ "\x7d"
    else String.ofList [c]

/-- Numbers are positional from 0.0001 up to below 10 to the 16th, with at least one digit behind
the point, and scientific without a plus sign outside. -/
def floatLayout : Binary64.Layout where
  plainFrom := -4
  plainBelow := 16
  pointZero := true
  exponentSign := false
  tie := .up

/-- A value with the name of its type. -/
def shown : BindValue → String
  | .int n => "Int(" ++ Text.decimal n ++ ")"
  | .float x => "Float(" ++ floatLayout.write x ++ ")"
  | .bool value => "Bool(" ++ (if value then "true" else "false") ++ ")"
  | .text content => "Text(\"" ++ String.join (content.toList.map shownChar) ++ "\")"
  | .date value => "Date(" ++ value.text ++ ")"
  | .timestamp value => "Timestamp(" ++ value.text ++ ")"

end BindValue

end SelectCompiler
