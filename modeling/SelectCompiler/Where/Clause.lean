import SelectCompiler.Predicate.Basic
import SelectCompiler.Where.Placeholder

/-!
The SQL text of a filter. Every test with a value takes the next free placeholder index; the index
is handed from sibling to sibling, so numbering can go on from where another text left off.
-/

namespace SelectCompiler.Where

/-- A bound value: `%index` in the text, and the type to bind it as. -/
structure Parameter where
  index : Nat
  value : Json
  hint : TypeHint
  deriving DecidableEq

/-- The JSON form of a parameter. -/
def Parameter.toJson (parameter : Parameter) : Json :=
  .object [("index", .ofNat parameter.index), ("value", parameter.value),
    ("type_hint", .string parameter.hint.name)]

/-- A piece of SQL text, its parameters in order, and the first index not used by it. -/
structure Clause where
  sql : String
  parameters : List Parameter
  next : Nat
  deriving DecidableEq

namespace Clause

/-- Text that binds nothing. -/
def text (sql : String) (index : Nat) : Clause := ⟨sql, [], index⟩

/-- One piece behind another. -/
def append (first second : Clause) : Clause :=
  ⟨first.sql ++ second.sql, first.parameters ++ second.parameters, second.next⟩

/-- Text put in front of a piece. -/
def behind (lead : String) (clause : Clause) : Clause :=
  { clause with sql := lead ++ clause.sql }

def parenthesized (clause : Clause) : Clause :=
  { clause with sql := "(" ++ clause.sql ++ ")" }

end Clause

/-- A trimmed text, or the fault of its being blank. -/
def nonBlank (part : EmptyPart) (text : String) : Except Error String :=
  let trimmed := Text.trim text
  if trimmed.isEmpty then .error (.emptyClause part) else .ok trimmed

/-- A test against a bound value. -/
def bindValue (index : Nat) (field comparator : String) (value : Json) (hint : TypeHint) :
    Except Error Clause :=
  let comparator := if comparator.isEmpty then "=" else comparator
  if index + 1 < Text.wordSize then
    .ok ⟨field ++ " " ++ comparator ++ " " ++ Placeholder.write index, [⟨index, value, hint⟩],
      index + 1⟩
  else .error (.configuration (.numberingOverflow index))

/-- A test without a value. -/
def standAlone (index : Nat) (field comparator : String) : Except Error Clause :=
  if comparator.isEmpty then .error (.malformedPredicate (.nothingToCompare field))
  else .ok (.text (field ++ " " ++ comparator) index)

def compileCondition (index : Nat) (condition : Condition) : Except Error Clause := do
  let field ← nonBlank .conditionField condition.field
  let comparator := Text.trim condition.comparator
  match condition.value with
  | none | some .null => standAlone index field comparator
  | some value =>
    if value.isStructured then .error (.malformedPredicate (.structuredValue field))
    else bindValue index field comparator value condition.hint

mutual
/-- The text of one predicate; a group stands in parentheses. -/
def compileNode (index : Nat) : Predicate → Except Error Clause
  | .leaf condition => compileCondition index condition
  | .raw sql _ => return .text (← nonBlank .rawCondition sql) index
  | .group _ children => do
    if children.isEmpty then throw (.emptyClause .groupChildren)
    let inner ← compileSiblings index children
    let _ ← nonBlank .groupText inner.sql
    return inner.parenthesized

/-- The text of a sequence. The connective of its first predicate is never written. -/
def compileSiblings (index : Nat) : List Predicate → Except Error Clause
  | [] => .ok (.text "" index)
  | node :: rest => do
    let first ← compileNode index node
    return first.append (← compileFollowing first.next rest)

/-- The text of the predicates behind the first, each behind its connective. -/
def compileFollowing (index : Nat) : List Predicate → Except Error Clause
  | [] => .ok (.text "" index)
  | node :: rest => do
    let first ← compileNode index node
    let lead := " " ++ node.connective.sql ++ " "
    return (first.behind lead).append (← compileFollowing first.next rest)
end

/-- The clause of a filter with placeholders numbered from `offset`; an empty filter has none. -/
def compile (tree : PredicateTree) (offset : Nat) : Except Error (Option Clause) :=
  if tree.isEmpty then .ok none else some <$> compileSiblings offset tree

end SelectCompiler.Where
