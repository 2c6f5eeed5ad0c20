import SelectCompiler.Join.Resolution
import SelectCompiler.Predicate.Composition
import SelectCompiler.Settings.Basic

/-!
SELECT statements as data, and the ways to put one together piece by piece. Nothing is checked
before the statement is compiled.
-/

namespace SelectCompiler

inductive Column where
  /-- A column of the table it is listed under. -/
  | name (column : String)
  | expression (sql : String) (outputName : Option String)
  deriving DecidableEq, Repr

def Column.sql (table : String) : Column → String
  | .name column => table ++ "." ++ column
  | .expression text none => text
  | .expression text (some outputName) => text ++ " AS " ++ outputName

inductive Selection where
  | columns (entries : List (String × List Column))
  | raw (list : String)
  deriving DecidableEq, Repr

structure Statement where
  selection : Option Selection := none
  tables : List TableRef := []
  joins : List JoinEntry := []
  filter : PredicateTree := []
  groupBy : List String := []
  orderBy : List String := []
  offset : Nat := 0
  strictJoins : Bool := false
  allowRawJoins : Bool := true
  deriving DecidableEq

namespace Statement

/-- The statement without any piece, under the given settings. -/
def ofSettings (settings : Settings) : Statement where
  offset := settings.offset
  strictJoins := settings.strictJoins
  allowRawJoins := settings.allowRawJoins

/-- More columns to select; they replace a raw select list. -/
def select (statement : Statement) (table : String) (columns : List Column) : Statement :=
  let before :=
    match statement.selection with
    | some (.columns entries) => entries
    | _ => []
  { statement with selection := some (.columns (before ++ [(table, columns)])) }

/-- A raw select list in place of any selection. -/
def selectRaw (statement : Statement) (list : String) : Statement :=
  { statement with selection := some (.raw list) }

def addTable (statement : Statement) (table : String) : Statement :=
  { statement with tables := statement.tables ++ [.ofText table] }

def addTables (statement : Statement) (tables : List String) : Statement :=
  { statement with tables := statement.tables ++ tables.map TableRef.ofText }

def addJoin (statement : Statement) (entry : JoinEntry) : Statement :=
  { statement with joins := statement.joins ++ [entry] }

def setFilter (statement : Statement) (filter : PredicateTree) : Statement :=
  { statement with filter := filter }

def addPredicate (statement : Statement) (node : Predicate) : Statement :=
  { statement with filter := statement.filter ++ [node] }

/-- A test for equality with a value, bound as a string. -/
def addEquality (statement : Statement) (field : String) (value : Json) : Statement :=
  statement.addPredicate (.leaf (.eq field value))

/-- More predicates behind the filter, as one group when a connective is given. -/
def mergeFilter (statement : Statement) (addition : PredicateTree) (wrap : Option Connective) :
    Statement :=
  { statement with filter := PredicateTree.compose wrap statement.filter addition }

def addGroupBy (statement : Statement) (fields : List String) : Statement :=
  { statement with groupBy := statement.groupBy ++ fields }

def addOrderBy (statement : Statement) (field direction : String) : Statement :=
  { statement with orderBy := statement.orderBy ++ [Text.trim (field ++ " " ++ direction)] }

end Statement

end SelectCompiler
