import SelectCompiler.Error
import SelectCompiler.Predicate.TypeHint

/-!
The settings that change how statements are compiled.
-/

namespace SelectCompiler

structure Settings where
  /-- Whether a join that cannot be placed is an error. -/
  strictJoins : Bool := false
  /-- Whether join entries may be raw text. -/
  allowRawJoins : Bool := true
  /-- The type of tests that name none. -/
  defaultHint : TypeHint := .string
  /-- The first placeholder index. -/
  offset : Nat := 0
  deriving DecidableEq, Repr

namespace Settings

/-- The default type must have a name. -/
def validate (settings : Settings) : Except Error Settings :=
  if settings.defaultHint = .other "" then .error (.configuration .blankDefaultType)
  else .ok settings

end Settings

end SelectCompiler
