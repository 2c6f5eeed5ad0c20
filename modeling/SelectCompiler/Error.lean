import SelectCompiler.Json.Printer

/-!
Everything that can keep a statement from being compiled, by cause. Each family of causes is a kind
of error; the wording of all of them is here.
-/

namespace SelectCompiler

/-- Required structure is missing or contradicts itself. -/
inductive StructureFault where
  | numberingOverflow (index : Nat)
  | noSource
  | selectedTableAbsent (table : String)
  | noSelection
  | blankSelection
  | tableSelectedTwice (table : String)
  | noColumns
  | documentNotObject (found : Json)
  | missingSelects
  | missingTablesAndJoins
  | selectsNotObject (found : Json)
  | columnsNotList (table : String)
  | unsupportedColumn (table : String) (found : Json)
  | badRawColumn (table : String)
  | entryNotString (part : String) (found : Json)
  | notStringList (part : String) (found : Json)
  | notList (part : String) (found : Json)
  | returnFieldNotString (found : Json)
  | returnAliasNotString (field : String) (found : Json)
  | returnFieldsShape (found : Json)
  | blankDefaultType
  deriving DecidableEq

def StructureFault.message : StructureFault → String
  | numberingOverflow index => s!"placeholder numbering overflows after %{index}"
  | noSource => "a table list or join descriptors are required"
  | selectedTableAbsent table => s!"selected table '{table}' is not in the FROM clause"
  | noSelection => "a column selection is required"
  | blankSelection => "the select list is empty"
  | tableSelectedTwice table => s!"table '{table}' appears more than once in the column selection"
  | noColumns => "the column selection names no columns"
  | documentNotObject found => s!"statement parts must be an object, found {found.compact}"
  | missingSelects => "minimum components missing: SELECTS"
  | missingTablesAndJoins => "minimum components missing: TABLES or JOINS"
  | selectsNotObject found => s!"SELECTS must map tables to columns, found {found.compact}"
  | columnsNotList table => s!"columns for '{table}' must be a list"
  | unsupportedColumn table found => s!"unsupported column for '{table}': {found.compact}"
  | badRawColumn table => s!"raw column for '{table}' needs a string 'expr' and optional 'alias'"
  | entryNotString name found => s!"{name} entries must be strings, found {found.compact}"
  | notStringList name found => s!"{name} must be a list of strings, found {found.compact}"
  | notList name found => s!"{name} must be a list, found {found.compact}"
  | returnFieldNotString found => s!"return fields must be strings, found {found.compact}"
  | returnAliasNotString field found =>
    s!"return field '{field}' must map to a string, found {found.compact}"
  | returnFieldsShape found => s!"return fields must be a list or object, found {found.compact}"
  | blankDefaultType => "default_type_hint must not be empty"

/-- A predicate that cannot be interpreted. -/
inductive PredicateFault where
  | unknownConnective (token : String)
  | notPredicateList (found : Json)
  | notPredicate (found : Json)
  | notGroupBody (found : Json)
  | unrecognizedStructure (found : Json)
  | fieldRequired (found : Json)
  | orphanEntry (key : String) (value : Json)
  | keyNotString (key : String) (found : Json)
  | structuredValue (field : String)
  | valueOrComparatorRequired (field : String)
  | nothingToCompare (field : String)
  deriving DecidableEq

def PredicateFault.message : PredicateFault → String
  | unknownConnective token => s!"unknown connective '{token}' (expected AND or OR)"
  | notPredicateList found => s!"expected a predicate list, found {found.compact}"
  | notPredicate found => s!"expected a predicate node, found {found.compact}"
  | notGroupBody found => s!"group body must be a predicate list, found {found.compact}"
  | unrecognizedStructure found =>
    s!"nested structure without a recognizable predicate shape: {found.compact}"
  | fieldRequired found => s!"'field' is required: {found.compact}"
  | orphanEntry key value => s!"'field' is required: \x7b\"{key}\": {value.compact}\x7d"
  | keyNotString key found =>
    let shown := if found.isStructured then "a nested structure" else found.compact
    s!"'{key}' must be a string, found {shown}"
  | structuredValue field => s!"value for '{field}' must be a scalar"
  | valueOrComparatorRequired field => s!"'{field}' needs a value or a self-contained comparator"
  | nothingToCompare field => s!"'{field}' has neither a value nor a self-contained comparator"

/-- The part of a filter that reduced to nothing. -/
inductive EmptyPart where
  | rawCondition
  | conditionField
  | groupText
  | groupChildren
  deriving DecidableEq

def EmptyPart.message : EmptyPart → String
  | rawCondition => "raw condition is empty"
  | conditionField => "condition field is empty"
  | groupText => "parenthetical group is empty"
  | groupChildren => "parenthetical group has no children"

/-- A join entry that is neither a descriptor nor permitted raw text. -/
inductive JoinFault where
  | rawNotPermitted (sql : String)
  | rightRequired (entry : Json)
  | notString (key : String) (found : Json)
  | notJoinEntry (found : Json)
  deriving DecidableEq

def JoinFault.message : JoinFault → String
  | rawNotPermitted sql => s!"raw join strings are not permitted: {sql}"
  | rightRequired entry => s!"join descriptor needs a string 'right' table: {entry.compact}"
  | notString key found => s!"join '{key}' must be a string, found {found.compact}"
  | notJoinEntry found => s!"join entries must be descriptors or SQL strings, found {found.compact}"

/-- What a parameter was expected to be. -/
inductive Expectation where
  | integer
  | positiveInteger
  | boolean
  | number
  | date
  | timestamp
  | scalar
  deriving DecidableEq

def Expectation.message : Expectation → String
  | integer => "expected an integer"
  | positiveInteger => "expected a positive integer"
  | boolean => "expected a boolean"
  | number => "expected a number"
  | date => "expected a date"
  | timestamp => "expected a timestamp"
  | scalar => "expected a scalar"

inductive Error where
  | configuration (fault : StructureFault)
  | malformedPredicate (fault : PredicateFault)
  | emptyClause (part : EmptyPart)
  | unsupportedJoin (fault : JoinFault)
  | unresolvedJoin (join : String) (postponements : Nat)
  | parameterType (index : Nat) (hint : String) (expected : Expectation) (found : Json)
  deriving DecidableEq

/-- The kinds that callers tell apart. -/
inductive Error.Kind where
  | configuration
  | malformedPredicate
  | emptyClause
  | unsupportedJoin
  | unresolvedJoin
  | parameterType
  deriving DecidableEq, Repr

def Error.kind : Error → Error.Kind
  | configuration _ => .configuration
  | malformedPredicate _ => .malformedPredicate
  | emptyClause _ => .emptyClause
  | unsupportedJoin _ => .unsupportedJoin
  | unresolvedJoin .. => .unresolvedJoin
  | parameterType .. => .parameterType

def Error.message : Error → String
  | configuration fault => "Configuration error: " ++ fault.message
  | malformedPredicate fault => "Malformed predicate: " ++ fault.message
  | emptyClause part => "Empty clause: " ++ part.message
  | unsupportedJoin fault => "Unsupported join shape: " ++ fault.message
  | unresolvedJoin join postponements =>
    s!"Unresolved join: {join} (postponed {postponements} times)"
  | parameterType index hint expected found =>
    s!"Parameter %{index} cannot be bound as {hint}: {expected.message}, found {found.compact}"

end SelectCompiler
