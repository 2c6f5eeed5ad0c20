import SelectCompiler.Json.Value
import SelectCompiler.Binary64.Layout

/-!
JSON text of a value, on one line without spaces or spread over lines with an indent of two.
-/

namespace SelectCompiler.Json

/-- Numbers with a fraction are positional from 0.00001 up to below 10 to the 16th, with at least
one digit behind the point, and scientific with a signed exponent outside. -/
def realLayout : Binary64.Layout where
  plainFrom := -5
  plainBelow := 16
  pointZero := true
  exponentSign := true
  tie := .toEven

def Number.write : Number → String
  | .integer n => Text.decimal n
  | .real x => realLayout.write x

/-- Two hexadecimal digits. -/
def hexByte (n : Nat) : String :=
  String.ofList [Nat.digitChar (n / 16), Nat.digitChar (n % 16)]

/-- How a character stands inside quotes: quotes, backslashes and control characters are escaped
and all others stand for themselves. -/
def escape (c : Char) : String :=
  match c with
  | '"' => "\\\""
  | '\\' => "\\\\"
  | '\x08' => "\\b"
  | '\x0c' => "\\f"
  | '\n' => "\\n"
  | '\r' => "\\r"
  | '\t' => "\\t"
  | c => if c.toNat < 0x20 then "\\u00" ++ hexByte c.toNat else String.ofList [c]

def quote (text : String) : String :=
  "\"" ++ String.join (text.toList.map escape) ++ "\""

mutual
/-- The text of a value without spaces. -/
def compact : Json → String
  | .null => "null"
  | .bool true => "true"
  | .bool false => "false"
  | .number n => n.write
  | .string text => quote text
  | .array items => "[" ++ ",".intercalate (compactItems items) ++ "]"
  | .object members => "\x7b" ++ ",".intercalate (compactMembers members) ++ "\x7d"

def compactItems : List Json → List String
  | [] => []
  | item :: rest => compact item :: compactItems rest

def compactMembers : List (String × Json) → List String
  | [] => []
  | (key, value) :: rest => (quote key ++ ":" ++ compact value) :: compactMembers rest
end

/-- Entries on lines of their own between two brackets; nothing between the brackets without
entries. -/
def block (depth : Nat) (opening closing : String) (entries : List String) : String :=
  let line (depth : Nat) := "\n" ++ String.ofList (List.replicate (2 * depth) ' ')
  if entries.isEmpty then opening ++ closing
  else
    opening ++ ",".intercalate (entries.map (line (depth + 1) ++ ·)) ++ line depth ++ closing

mutual
/-- The text of a value over several lines, nested `depth` levels deep. -/
def indentedAt (depth : Nat) : Json → String
  | .array items => block depth "[" "]" (indentedItems (depth + 1) items)
  | .object members => block depth "\x7b" "\x7d" (indentedMembers (depth + 1) members)
  | scalar => compact scalar

def indentedItems (depth : Nat) : List Json → List String
  | [] => []
  | item :: rest => indentedAt depth item :: indentedItems depth rest

def indentedMembers (depth : Nat) : List (String × Json) → List String
  | [] => []
  | (key, value) :: rest =>
    (quote key ++ ": " ++ indentedAt depth value) :: indentedMembers depth rest
end

def indented (value : Json) : String := indentedAt 0 value

end SelectCompiler.Json
