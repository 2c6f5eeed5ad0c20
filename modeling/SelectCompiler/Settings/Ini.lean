import SelectCompiler.Settings.Value
import SelectCompiler.Text.Blank
import SelectCompiler.Text.Taken

/-!
Settings in INI. Every value is a text; a section with what it holds is nothing that a setting
takes.
-/

namespace SelectCompiler.Ini

/-- The character that a letter behind a backslash stands for. -/
def letterEscape : Char → Char
  | '0' => '\x00'
  | 'a' => '\x07'
  | 'b' => '\x08'
  | 'n' => '\n'
  | 'r' => '\r'
  | 't' => '\t'
  | c => c

/-- The characters up to one of `ends`, with escapes resolved. The end of the input will do in its
place if `mayEnd`. -/
def upTo? (ends : List Char) (mayEnd : Bool) (chars : List Char) :
    Option (List Char × List Char) :=
  match chars with
  | [] => if mayEnd then some ([], []) else none
  | '\\' :: 'x' :: a :: b :: c :: d :: rest => do
    let point ← Text.hexUnit? a b c d
    let first ← Text.character? point
    let (more, behind) ← upTo? ends mayEnd rest
    return (first :: more, behind)
  | '\\' :: '\n' :: rest => upTo? ends mayEnd rest
  | '\\' :: letter :: rest =>
    if letter = 'x' then none
    else (upTo? ends mayEnd rest).map fun (more, behind) => (letterEscape letter :: more, behind)
  | c :: rest =>
    if ends.contains c then some ([], c :: rest)
    else if c = '\\' then none
    else (upTo? ends mayEnd rest).map fun (more, behind) => (c :: more, behind)

/-- What is left of a line, without blanks around it. -/
def line? (chars : List Char) : Option (List Char × List Char) :=
  (upTo? ['\n', '\r'] true chars).map fun (text, behind) => (Text.trimmed text, behind)

/-- A value with quotes around its start, or without. -/
def value? (chars : List Char) : Option (List Char × List Char) :=
  let isSpace (c : Char) : Bool := Text.isBlank c && c != '\n' && c != '\r'
  match chars.dropWhile isSpace with
  | '"' :: rest => quoted? '"' rest
  | '\'' :: rest => quoted? '\'' rest
  | rest => line? rest
where
  quoted? (quote : Char) (chars : List Char) : Option (List Char × List Char) := do
    let (start, behind) ← upTo? [quote] false chars
    let (tail, behind) ← line? (behind.drop 1)
    return (start ++ tail, behind)

inductive Item where
  | comment
  | header (name : List Char)
  | pair (key value : List Char)
  deriving DecidableEq

/-- The first item. Only at the start of a line may it be a comment. -/
def item? (lineStart : Bool) (chars : List Char) : Option (Item × List Char) :=
  match chars with
  | ';' :: rest | '#' :: rest =>
    if lineStart then some (.comment, rest.dropWhile (· != '\n')) else none
  | '[' :: rest =>
    (upTo? [']'] false rest).map fun (name, behind) =>
      (.header (Text.trimmed name), behind.drop 1)
  | chars => do
    let (key, behind) ← upTo? ['=', ':'] false chars
    let key := Text.trimmed key
    if key.isEmpty then none
    else
      let (value, behind) ← value? (behind.drop 1)
      return (.pair key value, behind)

/-- Whether the last of some blanks ends a line; without blanks, what `otherwise` says. -/
def endLine (otherwise : Bool) (blanks : List Char) : Bool :=
  match blanks.getLast? with
  | some c => c == '\n'
  | none => otherwise

/-- All items; `lineStart` says whether the characters start a line. -/
def items? (lineStart : Bool) (chars : List Char) : Option (List Item) :=
  let starts := endLine lineStart (chars.takeWhile Text.isBlank)
  match found : chars.dropWhile Text.isBlank with
  | [] => some []
  | c :: rest =>
    let first? : Option (Taken Item (c :: rest)) := Taken.ofRead? (item? starts (c :: rest))
    first?.bind fun first =>
      have : first.rest.length < chars.length := by
        have := (List.dropWhile_sublist Text.isBlank (l := chars)).length_le
        rw [found] at this
        exact Nat.lt_of_lt_of_le first.shorter this
      (items? false first.rest).map (first.value :: ·)
termination_by chars.length

def Item.isHeader : Item → Bool
  | header _ => true
  | _ => false

def Item.pair? : Item → Option (String × SettingValue)
  | pair key value => some (String.ofList key, .text (String.ofList value))
  | _ => none

/-- The pairs before the first header. -/
def pairs (items : List Item) : List (String × SettingValue) :=
  (items.takeWhile (!·.isHeader)).filterMap Item.pair?

def sections : List Item → List (String × SettingValue)
  | [] => []
  | .header name :: rest =>
    (String.ofList name, if (pairs rest).isEmpty then .emptyTable else .unfit) :: sections rest
  | _ :: rest => sections rest

/-- The pairs before the first section, then all sections. -/
def read? (text : String) : Option (List (String × SettingValue)) :=
  (items? true text.toList).map fun items => pairs items ++ sections items

end SelectCompiler.Ini
