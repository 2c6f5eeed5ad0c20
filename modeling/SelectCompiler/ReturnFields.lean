import SelectCompiler.Error
import SelectCompiler.Text.Numeral

/-!
The fields that a caller wants of a row, some under another name.
-/

namespace SelectCompiler

inductive ReturnField where
  | plain (name : String)
  | aliased (name outputName : String)
  deriving DecidableEq, Repr

namespace ReturnField

def field : ReturnField → String
  | plain name => name
  | aliased name _ => name

/-- The key that the value is returned under. -/
def outputKey : ReturnField → String
  | plain name => name
  | aliased _ outputName => outputName

def isAliased : ReturnField → Bool
  | plain _ => false
  | aliased .. => true

/-- A listed field. -/
def ofItem : Json → Except Error ReturnField
  | .string name => .ok (plain name)
  | found => .error (.configuration (.returnFieldNotString found))

/-- A keyed field: a number as key only counts, any other key is the field and the value its
alias. -/
def ofEntry (key : String) : Json → Except Error ReturnField
  | .string name =>
    .ok (if (Text.unsigned? key).isSome then plain name else aliased key name)
  | found => .error (.configuration (.returnAliasNotString key found))

/-- The fields that a JSON value asks for: none, a list of names, or an object. -/
def read : Json → Except Error (List ReturnField)
  | .null => .ok []
  | .array items => items.mapM ofItem
  | .object members => members.mapM fun entry => ofEntry entry.1 entry.2
  | found => .error (.configuration (.returnFieldsShape found))

end ReturnField

/-- The row under the keys that were asked for, in the order of the request; a field that the row
lacks is null. Without a request the row comes back as it is. -/
def projectRow (row : Json.Members) (fields : List ReturnField) : Json.Members :=
  if fields.isEmpty then row
  else
    .ofList (fields.map fun field => (field.outputKey, (row.get? field.field).getD .null))

end SelectCompiler
