import SelectCompiler.Error
import SelectCompiler.Text.Blank

/-!
The two connectives that join a predicate to the one before it.
-/

namespace SelectCompiler

inductive Connective where
  | and
  | or
  deriving DecidableEq, Repr

namespace Connective

instance : Inhabited Connective := ⟨.and⟩

def sql : Connective → String
  | and => "AND"
  | or => "OR"

/-- The connective that a token names, in any case and with blanks around it. -/
def ofToken? (token : String) : Option Connective :=
  let word := (Text.trim token).toUpper
  if word = "AND" then some .and
  else if word = "OR" then some .or
  else none

def ofToken (token : String) : Except Error Connective :=
  match ofToken? token with
  | some connective => .ok connective
  | none => .error (.malformedPredicate (.unknownConnective token))

end Connective

end SelectCompiler
