import SelectCompiler.Settings.Yaml.Layout
import SelectCompiler.Settings.Yaml.Tree

/-!
Settings in YAML: one document, which is a mapping.
-/

namespace SelectCompiler.Yaml

/-- The entries of a text; without a document, there are none. -/
def read? (text : String) : Option (List (String × SettingValue)) := do
  match ← document? (← tokens? text) with
  | none => some []
  | some (.mapping entries?) => entries?
  | some _ => none

end SelectCompiler.Yaml
