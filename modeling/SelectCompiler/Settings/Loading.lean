import SelectCompiler.Settings.Basic
import SelectCompiler.Settings.File
import SelectCompiler.Settings.Key

/-!
Settings in layers: the defaults, then a settings file, then environment variables. What comes later
wins, setting by setting.
-/

namespace SelectCompiler

/-- Why there are no settings. -/
inductive SettingsFault where
  | unloadable
  | invalid (error : Error)
  deriving DecidableEq

/-- Where to look for the settings file. -/
inductive FileChoice where
  | noFile
  /-- The file at the usual place, if it is there. -/
  | usual
  | required (path : String)
  deriving DecidableEq, Repr

namespace Settings

/-- The start of the names of all variables that hold settings, in lower case. -/
def variableStart : List Char := "volunteer_search_".toList

/-- The path of the settings file when none is asked for. -/
def usualPath : String := "config/volunteer_search.toml"

/-- The settings among the environment variables. Names count in any case. -/
def ofEnvironment (environment : List (String × String)) : List (String × SettingValue) :=
  environment.filterMap fun (name, value) =>
    let chars := name.toLower.toList
    if variableStart.isPrefixOf chars then
      some (String.ofList (chars.drop variableStart.length), .ofText value)
    else none

/-- The value that entries leave a setting with: the last one for it, where a table without entries
counts only if there is no other. -/
def given? (entries : List (String × SettingValue)) (key : String) : Option SettingValue :=
  let values := (entries.filter (·.1 == key)).map (·.2)
  (values.filter (· != .emptyTable)).getLast?.or values.getLast?

/-- One setting: the default where it is not given, nothing where its value has the wrong type. -/
def field? {α : Type} (entries : List (String × SettingValue)) (key : String)
    (read : SettingValue → Option α) (default : α) : Option α :=
  match given? entries key with
  | some value => read value
  | none => some default

/-- The settings of all entries together. -/
def ofEntries? (entries : List (String × SettingValue)) : Option Settings := do
  let defaults : Settings := {}
  return {
    strictJoins := ← field? entries "strict_joins" SettingValue.switch? defaults.strictJoins
    allowRawJoins := ← field? entries "allow_raw_joins" SettingValue.switch? defaults.allowRawJoins
    defaultHint := ← field? entries "default_type_hint"
      (fun value => value.text?.map TypeHint.ofName) defaults.defaultHint
    offset := ← field? entries "param_offset" SettingValue.word? defaults.offset }

/-- A path from its end to its front, without slashes and points of their own at the end. -/
def bareReversed : List Char → List Char
  | '/' :: rest => bareReversed rest
  | '.' :: '/' :: rest => bareReversed rest
  | path => path

/-- The paths at which a settings file may be found, the exact one first, then those with an ending
more. -/
def candidates (path : String) : List String :=
  let name := String.ofList (bareReversed path.toList.reverse).reverse
  if name.isEmpty then [path]
  else path :: FileFormat.endings.map fun ending => name ++ "." ++ ending.1

/-- The entries of the file at a path, or none when there is no such file. -/
def fileEntries (file? : String → Option String) (path : String) :
    Except SettingsFault (Option (List (String × SettingValue))) :=
  match (candidates path).findSome? fun path => (file? path).map fun text => (path, text) with
  | none => .ok none
  | some (path, text) =>
    match (FileFormat.ofPath? path).bind fun format => format.read? text with
    | some entries => .ok (some (latestEntries entries))
    | none => .error .unloadable

/-- The entries of the chosen file. -/
def chosenEntries (file? : String → Option String) :
    FileChoice → Except SettingsFault (List (String × SettingValue))
  | .noFile => .ok []
  | .usual => return (← fileEntries file? usualPath).getD []
  | .required path => do
    match ← fileEntries file? path with
    | some entries => return entries
    | none => throw .unloadable

/-- The settings of the chosen file and the environment. -/
def load (file? : String → Option String) (environment : List (String × String))
    (choice : FileChoice) : Except SettingsFault Settings := do
  let entries ← chosenEntries file? choice
  match ofEntries? ((entries ++ ofEnvironment environment).map SettingKey.resolve) with
  | none => throw .unloadable
  | some settings =>
    match settings.validate with
    | .ok settings => return settings
    | .error error => throw (.invalid error)

end Settings

end SelectCompiler
