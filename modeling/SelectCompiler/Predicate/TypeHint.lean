import SelectCompiler.Text.Blank

/-!
The names of the types that parameters are bound as. Eleven are built in; any other name is kept
as it is.
-/

namespace SelectCompiler

inductive TypeHint where
  | string
  | integer
  | int
  | positive
  | boolean
  | float
  | money
  | date
  | timestamp
  | memo
  | link
  | other (name : String)
  deriving DecidableEq, Repr

namespace TypeHint

instance : Inhabited TypeHint := ⟨.string⟩

def name : TypeHint → String
  | string => "String"
  | integer => "Integer"
  | int => "Int"
  | positive => "Positive"
  | boolean => "Boolean"
  | float => "Float"
  | money => "Money"
  | date => "Date"
  | timestamp => "Timestamp"
  | memo => "Memo"
  | link => "Link"
  | other name => name

def builtIn : List TypeHint :=
  [string, integer, int, positive, boolean, float, money, date, timestamp, memo, link]

/-- The hint that a name stands for. Blanks around the name are dropped, and the names of the
built-in types are known in any case. -/
def ofName (name : String) : TypeHint :=
  let word := Text.trim name
  (builtIn.find? fun hint => hint.name.toLower = word.toLower).getD (other word)

end TypeHint

end SelectCompiler
