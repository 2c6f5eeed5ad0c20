import SelectCompiler.Settings.Ini
import SelectCompiler.Settings.Json5
import SelectCompiler.Settings.Ron
import SelectCompiler.Settings.Toml.Reader
import SelectCompiler.Settings.Yaml.Reader

/-!
Settings files. The ending of a file's name tells its format.
-/

namespace SelectCompiler

inductive FileFormat where
  | toml
  | json
  | json5
  | yaml
  | ini
  | ron
  deriving DecidableEq, Repr

namespace FileFormat

/-- Each ending with its format. -/
def endings : List (String × FileFormat) :=
  [("toml", .toml), ("json", .json), ("json5", .json5), ("yaml", .yaml), ("yml", .yaml),
    ("ini", .ini), ("ron", .ron)]

/-- What stands behind the last point in the last part of a path; a point at the front of the part
does not count. -/
def ending? (path : String) : Option String :=
  let name := path.toList.reverse.takeWhile (· != '/')
  match name.dropWhile (· != '.') with
  | _ :: _ :: _ => some (String.ofList (name.takeWhile (· != '.')).reverse)
  | _ => none

def ofPath? (path : String) : Option FileFormat :=
  (ending? path).bind fun ending => endings.lookup ending

end FileFormat

/-- What JSON values are as settings. -/
def SettingValue.ofJson : Json → SettingValue
  | .bool value => .bool value
  | .number (.integer n) =>
    if n < Text.signedLimit then .integer n else .real (.ofInt n)
  | .number (.real x) => .real x
  | .string content => .text content
  | .object [] => .emptyTable
  | .null | .array _ | .object _ => .unfit

namespace FileFormat

/-- The entries of a JSON text, which has to be an object. -/
def readJson? (text : String) : Option (List (String × SettingValue)) :=
  match Json.ofText? text with
  | some (.object members) =>
    some (members.map fun member => (member.1, SettingValue.ofJson member.2))
  | _ => none

/-- A text without the byte order mark that may stand at its front. -/
def unmarked (text : String) : String :=
  match text.toList with
  | '\ufeff' :: rest => String.ofList rest
  | _ => text

/-- The entries that a text gives, unless it is malformed. -/
def read? (format : FileFormat) (text : String) : Option (List (String × SettingValue)) :=
  match format with
  | .toml => Toml.read? (unmarked (unmarked text))
  | .json => readJson? (unmarked text)
  | .json5 => Json5.read? (unmarked text)
  | .yaml => Yaml.read? (unmarked text)
  | .ini => Ini.read? (unmarked text)
  | .ron => Ron.read? (unmarked text)

end FileFormat

end SelectCompiler
