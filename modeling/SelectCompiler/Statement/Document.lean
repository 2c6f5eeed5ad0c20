import SelectCompiler.Statement.Query

/-!
Statements described as JSON documents. The sections of a document are its select list, tables,
joins, filter, grouping and order; the first and one of the next two are required.
-/

namespace SelectCompiler

structure Document where
  selects : Option Json
  tables : Option (List String)
  joins : Option (List Json)
  filter : Json
  groupBy : List String
  orderBy : List String
  deriving DecidableEq

namespace Document

/-- A list of texts, or one text alone. -/
def textList (part : String) : Json → Except Error (List String)
  | .string text => .ok [text]
  | .array items => items.mapM fun
    | .string text => .ok text
    | found => .error (.configuration (.entryNotString part found))
  | found => .error (.configuration (.notStringList part found))

/-- A list of values, or the values of a label map. -/
def valueList (part : String) : Json → Except Error (List Json)
  | .array items => .ok items
  | .object members => .ok (members.map (·.2))
  | found => .error (.configuration (.notList part found))

/-- What the section under a key holds, when there is one. -/
def sectionAt {α : Type} (members : Json.Members) (key : String)
    (read : String → Json → Except Error α) : Except Error (Option α) :=
  match members.get? key with
  | none => .ok none
  | some value => (read key value).map some

def read : Json → Except Error Document
  | .object members => do
    let tables ← sectionAt members "TABLES" textList
    let joins ← sectionAt members "JOINS" valueList
    let groupBy ← sectionAt members "GROUP_BYS" textList
    let orderBy ← sectionAt members "ORDER_BYS" textList
    return {
      selects := Json.Members.get? members "SELECTS"
      tables := tables
      joins := joins
      filter := (Json.Members.get? members filterKey).getD .null
      groupBy := groupBy.getD []
      orderBy := orderBy.getD [] }
  | found => .error (.configuration (.documentNotObject found))

/-- One column: its name, or an expression with an optional alias. -/
def column (table : String) : Json → Except Error Column
  | .string name => .ok (.name name)
  | .object members =>
    match Json.Members.get? members "expr", Json.Members.get? members "alias" with
    | some (.string sql), none => .ok (.expression sql none)
    | some (.string sql), some (.string outputName) => .ok (.expression sql (some outputName))
    | _, _ => .error (.configuration (.badRawColumn table))
  | found => .error (.configuration (.unsupportedColumn table found))

def columns (table : String) : Json → Except Error (List Column)
  | .array items => items.mapM (column table)
  | _ => .error (.configuration (.columnsNotList table))

/-- The statement with the selection that the select section describes. -/
def applySelects (statement : Statement) : Json → Except Error Statement
  | .string list => .ok (statement.selectRaw list)
  | .object members =>
    members.foldlM
      (fun statement entry => return statement.select entry.1 (← columns entry.1 entry.2))
      statement
  | found => .error (.configuration (.selectsNotObject found))

/-- The statement that a document describes. -/
def toStatement (document : Document) (settings : Settings) : Except Error Statement := do
  let some selects := document.selects | throw (.configuration .missingSelects)
  if document.tables.isNone && document.joins.isNone then
    throw (.configuration .missingTablesAndJoins)
  let statement ← applySelects (.ofSettings settings) selects
  let joins ← (document.joins.getD []).mapM JoinEntry.read
  let filter ← PredicateTree.read settings.defaultHint document.filter
  return {
    statement with
    tables := (document.tables.getD []).map TableRef.ofText
    joins := joins
    filter := filter
    groupBy := document.groupBy
    orderBy := document.orderBy.map fun entry => Text.trim (entry ++ " ") }

def compile (document : Document) (settings : Settings) : Except Error Query := do
  (← document.toStatement settings).compile

end Document

/-- The query of a JSON document. -/
def compileDocument (settings : Settings) (value : Json) : Except Error Query := do
  (← Document.read value).compile settings

end SelectCompiler
