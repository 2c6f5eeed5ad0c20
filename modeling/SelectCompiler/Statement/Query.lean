import SelectCompiler.Statement.Basic
import SelectCompiler.Where.Clause

/-!
Statements compiled to SQL text with numbered placeholders.
-/

namespace SelectCompiler

open Where (Parameter Clause)

/-- The text of a statement, its parameters in order, and the first index not used by it. -/
structure Query where
  sql : String
  parameters : List Parameter
  next : Nat
  deriving DecidableEq

/-- The JSON form of a query. -/
def Query.toJson (query : Query) : Json :=
  .object [("sql", .string query.sql),
    ("parameters", .array (query.parameters.map Parameter.toJson)),
    ("next_index", .ofNat query.next)]

namespace Statement

/-- The first name that has occurred before, among `seen` or earlier in the list. -/
def firstRepeated? (seen : List String) : List String → Option String
  | [] => none
  | name :: rest => if seen.contains name then some name else firstRepeated? (name :: seen) rest

/-- The text between SELECT and FROM. -/
def selectList (statement : Statement) : Except Error String :=
  match statement.selection with
  | none => .error (.configuration .noSelection)
  | some (.raw list) =>
    let list := Text.trim list
    if list.isEmpty then .error (.configuration .blankSelection) else .ok list
  | some (.columns entries) =>
    match firstRepeated? [] (entries.map (·.1)) with
    | some table => .error (.configuration (.tableSelectedTwice table))
    | none =>
      let columns := entries.flatMap fun entry => entry.2.map (Column.sql entry.1)
      if columns.isEmpty then .error (.configuration .noColumns)
      else .ok (", ".intercalate columns)

/-- Something must stand behind FROM. -/
def checkSource (statement : Statement) : Except Error Unit :=
  if statement.tables.isEmpty && statement.joins.isEmpty then
    .error (.configuration .noSource)
  else .ok ()

/-- Raw join texts must be allowed. -/
def checkRawJoins (statement : Statement) : Except Error Unit :=
  match statement.allowRawJoins, statement.joins.findSome? JoinEntry.raw? with
  | false, some sql => .error (.unsupportedJoin (.rawNotPermitted sql))
  | _, _ => .ok ()

/-- Whether a name occurs in SQL text as a word of ASCII letters, digits and underscores. -/
def mentions (sql name : String) : Bool :=
  (sql.toList.splitOnP fun c => !(c.isAlphanum || c == '_')).contains name.toList

/-- Every table with selected columns must be among the resolved ones or in a raw join text. -/
def checkSelected (statement : Statement) (resolved : List String) : Except Error Unit :=
  match statement.selection with
  | some (.columns entries) =>
    let raws := statement.joins.filterMap JoinEntry.raw?
    let absent (table : String) := !resolved.contains table && !raws.any (mentions · table)
    match (entries.map (·.1)).find? absent with
    | some table => .error (.configuration (.selectedTableAbsent table))
    | none => .ok ()
  | _ => .ok ()

/-- The filter with the join conditions that no join step carries in front of it. -/
def filterAfter (residual : List String) (filter : PredicateTree) : PredicateTree :=
  let conditions := residual.map (Predicate.raw · .and)
  if residual.isEmpty then filter
  else if 1 < filter.length then PredicateTree.mergeWrapped .and conditions filter
  else PredicateTree.merge conditions filter

/-- A keyword with a list behind it; nothing for an empty list. -/
def listClause (keyword : String) (entries : List String) : String :=
  if entries.isEmpty then "" else " " ++ keyword ++ " " ++ ", ".intercalate entries

def compile (statement : Statement) : Except Error Query := do
  let columns ← statement.selectList
  statement.checkSource
  statement.checkRawJoins
  let resolution ← resolveJoins statement.strictJoins statement.tables statement.joins
  statement.checkSelected resolution.tables
  let filter := filterAfter resolution.residual statement.filter
  let clause := (← Where.compile filter statement.offset).map (Clause.behind " WHERE ")
  let clause := clause.getD (.text "" statement.offset)
  return {
    sql := "SELECT " ++ columns ++ " FROM " ++ resolution.fromClause ++ clause.sql
      ++ listClause "GROUP BY" statement.groupBy ++ listClause "ORDER BY" statement.orderBy
    parameters := clause.parameters
    next := clause.next }

end Statement

end SelectCompiler
