import SelectCompiler.Settings.Value

/-!
The tables of a TOML document. A table comes into being in one of three ways: by its own header, by
the header of a table inside it, or by a dotted key. The rules that keep a document from giving
anything twice go by these ways.
-/

namespace SelectCompiler.Toml

/-- One step on the way from the document to a value: a key, or an element of a list of tables. -/
inductive Step where
  | key (name : String)
  | element (index : Nat)
  deriving DecidableEq, Repr

abbrev Place := List Step

/-- What stands at a place. -/
inductive Node where
  | value (content : SettingValue)
  /-- A table with a header of its own. -/
  | headed
  /-- A table that only the headers of tables inside it have mentioned. -/
  | implied
  /-- A table that dotted keys have made. -/
  | dotted
  /-- A list of tables with their number. -/
  | elements (count : Nat)
  deriving DecidableEq, Repr

/-- What stands where, the latest first. -/
abbrev Tables := List (Place × Node)

namespace Tables

def find? (tables : Tables) (place : Place) : Option Node := List.lookup place tables

def set (tables : Tables) (place : Place) (node : Node) : Tables := (place, node) :: tables

/-- Go down from a place along keys; tables that are missing come into being as `made`. A list of
tables is entered at its last one. Dotted keys do not enter a table with a header. -/
def descend? (made : Node) (tables : Tables) (place : Place) : List String → Option (Tables × Place)
  | [] => some (tables, place)
  | key :: keys =>
    let next := place ++ [.key key]
    match tables.find? next with
    | none => descend? made (tables.set next made) next keys
    | some (.value _) => none
    | some (.elements count) => descend? made tables (next ++ [.element (count - 1)]) keys
    | some .headed => if made = .dotted then none else descend? made tables next keys
    | some .implied | some .dotted => descend? made tables next keys

/-- Go down along all keys but the last, and add the last. -/
def target? (made : Node) (tables : Tables) (place : Place) (path : List String) :
    Option (Tables × Place × Place) := do
  let key ← path.getLast?
  let (tables, parent) ← tables.descend? made place path.dropLast
  return (tables, parent, parent ++ [.key key])

/-- Give a value to a key, dotted or not, of the table at a place. A dotted key adds only to tables
that dotted keys have made, and nothing is given twice. -/
def assign? (tables : Tables) (place : Place) (path : List String) (content : SettingValue) :
    Option Tables := do
  let (tables, parent, target) ← tables.target? .dotted place path
  if 1 < path.length ∧ tables.find? parent ≠ some .dotted then none
  else if (tables.find? target).isSome then none
  else return tables.set target (.value content)

/-- Open the table of a header; only the headers of tables inside it may have come before. -/
def openTable? (tables : Tables) (path : List String) : Option (Tables × Place) := do
  let (tables, _, target) ← tables.target? .implied [] path
  match tables.find? target with
  | none | some .implied => return (tables.set target .headed, target)
  | some _ => none

/-- Open one more table of a list of tables. -/
def openElement? (tables : Tables) (path : List String) : Option (Tables × Place) := do
  let (tables, _, target) ← tables.target? .implied [] path
  match tables.find? target with
  | none => return (tables.set target (.elements 1), target ++ [.element 0])
  | some (.elements count) =>
    return (tables.set target (.elements (count + 1)), target ++ [.element count])
  | some _ => none

/-- What the key of a table or of a list of tables has for a value. -/
def held (tables : Tables) (key : String) : SettingValue :=
  let isInside (place : Place) : Bool := place.head? == some (.key key) && place != [.key key]
  if tables.any fun (place, _) => isInside place then .unfit
  else
    match tables.find? [.key key] with
    | some (.elements _) => .unfit
    | _ => .emptyTable

/-- The keys of the document itself with their values, in order of first mention. -/
def entries (tables : Tables) : List (String × SettingValue) :=
  let keys := tables.reverse.filterMap fun (place, _) =>
    match place with
    | [.key key] => some key
    | _ => none
  keys.eraseDups.map fun key =>
    match tables.find? [.key key] with
    | some (.value content) => (key, content)
    | _ => (key, tables.held key)

end Tables

end SelectCompiler.Toml
