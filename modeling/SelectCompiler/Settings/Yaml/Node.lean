import SelectCompiler.Settings.Value
import SelectCompiler.Settings.Yaml.Tag

/-!
What the parts of a YAML document come to as settings. A plain text is read by the words and the
numbers that YAML knows, unless a tag says what it is.
-/

namespace SelectCompiler.Yaml

inductive Node where
  /-- Something that does not fit its tag, or that is inside of what it repeats. -/
  | misfit
  | null
  /-- A text or what it stands for; nothing if the text keeps the whole document from being read. -/
  | scalar (content : String) (value? : Option SettingValue)
  /-- A sequence whose items all have values or not. -/
  | sequence (isSound : Bool)
  /-- A mapping; nothing if it keeps the whole document from being read. -/
  | mapping (entries? : Option (List (String × SettingValue)))
  deriving DecidableEq, Repr

/-- Digits of a base with an optional sign, which fit a signed word. -/
def signedInBase? (base : Nat) (chars : List Char) : Option Int :=
  let n? : Option Int :=
    match chars with
    | '-' :: digits => (Text.inBase? base digits).map fun n => -n
    | '+' :: digits => (Text.inBase? base digits).map Int.ofNat
    | digits => (Text.inBase? base digits).map Int.ofNat
  n?.filter fun n => -Text.signedLimit ≤ n && n < Text.signedLimit

/-- An integer. A plus sign may stand before one that has a sign of its own. -/
def integer? (content : String) : Option Int :=
  match content.toList with
  | '0' :: 'x' :: digits => signedInBase? 16 digits
  | '0' :: 'o' :: digits => signedInBase? 8 digits
  | '+' :: rest => Text.signed? (String.ofList rest)
  | _ => Text.signed? content

/-- The words for numbers that are not finite. -/
def boundless : List String :=
  [".inf", ".Inf", ".INF", "+.inf", "+.Inf", "+.INF", "-.inf", "-.Inf", "-.INF", ".nan", ".NAN"]

/-- A number that is no integer. The words for numbers that are not finite have no value. -/
def real? (content : String) : Option Node :=
  if boundless.contains content then some (.scalar content none)
  else if content.any Char.isDigit || content == "NaN" then
    (Binary64.ofText? content).map fun x => .scalar content (some (.real x))
  else none

namespace Node

def ofText (content : String) : Node := scalar content (some (.text content))

def ofBool (value : Bool) : Node :=
  scalar (if value then "true" else "false") (some (.bool value))

def ofInteger (n : Int) : Node := scalar (Text.decimal n) (some (.integer n))

/-- A plain text without a tag. -/
def ofPlain (content : String) : Node :=
  match content with
  | "" | "~" | "null" => null
  | "true" => ofBool true
  | "false" => ofBool false
  | _ =>
    match integer? content with
    | some n => ofInteger n
    | none => (real? content).getD (ofText content)

/-- A plain text whose tag says what kind it is. -/
def ofTagged (kind content : String) : Node :=
  match kind with
  | "bool" =>
    match content with
    | "true" => ofBool true
    | "false" => ofBool false
    | _ => misfit
  | "int" => ((Text.signed? content).map ofInteger).getD misfit
  | "float" => (real? content).getD misfit
  | "null" => if content = "~" ∨ content = "null" then null else misfit
  | _ => ofText content

/-- A text, plain or not, with its tag. -/
def ofScalar (isPlain : Bool) (tag? : Option Tag) (content : String) : Node :=
  match isPlain, tag? with
  | true, none => ofPlain content
  | true, some tag =>
    if tag.handle = coreHandle then ofTagged tag.suffix content else ofText content
  | false, _ => ofText content

/-- What stands where a node is left out. -/
def ofNothing (tag? : Option Tag) : Node := ofScalar true tag? "~"

/-- The name that a node is as a key. -/
def name? : Node → Option String
  | scalar content _ => some content
  | _ => none

def value? : Node → Option SettingValue
  | misfit | null => some .unfit
  | scalar _ value? => value?
  | sequence isSound => if isSound then some .unfit else none
  | mapping entries? =>
    entries?.map fun entries => if entries.isEmpty then .emptyTable else .unfit

def ofItems (items : List Node) : Node := sequence (items.all (·.value?.isSome))

/-- Keys with their values. A misfit is no key, so that what follows it is taken for one. -/
def paired : List Node → List (Node × Node)
  | misfit :: rest => paired rest
  | key :: value :: rest => (key, value) :: paired rest
  | _ => []

/-- A mapping from its keys and values in turn. Every key needs a name. -/
def ofKeysAndValues (nodes : List Node) : Node :=
  let named? := (paired nodes).mapM fun (key, value) => key.name?.map fun name => (name, value)
  mapping do
    let named ← named?
    (latestEntries named).mapM fun (name, node) => node.value?.map fun value => (name, value)

end Node

end SelectCompiler.Yaml
