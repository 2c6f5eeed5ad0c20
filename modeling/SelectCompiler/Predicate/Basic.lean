import SelectCompiler.Predicate.Connective
import SelectCompiler.Predicate.TypeHint

/-!
Filters. A filter is an ordered sequence of predicates, each joined to the one before it by its own
connective; a group is such a sequence read as one unit. The canonical JSON of a filter says all of
this with one spelling.
-/

namespace SelectCompiler

/-- A test of one field. Without a value the comparator says all there is to say. -/
structure Condition where
  field : String
  comparator : String
  value : Option Json
  hint : TypeHint
  connective : Connective
  deriving DecidableEq

inductive Predicate where
  | leaf (condition : Condition)
  | raw (sql : String) (connective : Connective)
  | group (connective : Connective) (children : List Predicate)

/-- Sibling predicates in order. -/
abbrev PredicateTree := List Predicate

namespace Condition

/-- A test whose comparator needs no value. -/
def selfContained (field comparator : String) : Condition :=
  ⟨field, comparator, none, .string, .and⟩

/-- A test against a value; null is no value. -/
def compare (field comparator : String) (value : Json) : Condition :=
  ⟨field, comparator, if value = .null then none else some value, .string, .and⟩

def eq (field : String) (value : Json) : Condition :=
  compare field "=" value

end Condition

namespace Predicate

def connective : Predicate → Connective
  | leaf condition => condition.connective
  | raw _ connective => connective
  | group connective _ => connective

def withConnective (connective : Connective) : Predicate → Predicate
  | leaf condition => leaf { condition with connective := connective }
  | raw sql _ => raw sql connective
  | group _ children => group connective children

mutual
def same : Predicate → Predicate → Bool
  | leaf a, leaf b => a == b
  | raw a c, raw b d => a == b && c == d
  | group c a, group d b => c == d && sameAll a b
  | _, _ => false

def sameAll : List Predicate → List Predicate → Bool
  | [], [] => true
  | a :: as, b :: bs => same a b && sameAll as bs
  | _, _ => false
end

mutual
theorem same_iff_eq : ∀ a b : Predicate, same a b = true ↔ a = b
  | leaf _, b => by cases b <;> simp [same]
  | raw _ _, b => by cases b <;> simp [same]
  | group _ a, b => by cases b <;> simp [same, sameAll_iff_eq a]

theorem sameAll_iff_eq : ∀ a b : List Predicate, sameAll a b = true ↔ a = b
  | [], b => by cases b <;> simp [sameAll]
  | a :: as, b => by cases b <;> simp [sameAll, same_iff_eq a, sameAll_iff_eq as]
end

instance : DecidableEq Predicate := fun a b => decidable_of_iff _ (same_iff_eq a b)

end Predicate

/-- The canonical members of a test; a test without a value has no member for it. -/
def Condition.toMembers (condition : Condition) : Json.Members :=
  [("field", .string condition.field), ("comp", .string condition.comparator)]
    ++ (condition.value.map fun value => ("value", value)).toList
    ++ [("type", .string condition.hint.name), ("conj", .string condition.connective.sql)]

mutual
/-- The canonical JSON of a predicate. -/
def Predicate.toJson : Predicate → Json
  | .leaf condition => .object condition.toMembers
  | .raw sql connective => .object [("sql", .string sql), ("conj", .string connective.sql)]
  | .group connective children =>
    .object [("conj", .string connective.sql),
      ("children", .array (PredicateTree.toItems children))]

def PredicateTree.toItems : List Predicate → List Json
  | [] => []
  | node :: rest => node.toJson :: PredicateTree.toItems rest
end

/-- The canonical JSON of a filter. -/
def PredicateTree.toJson (tree : PredicateTree) : Json :=
  .array (toItems tree)

mutual
/-- How many of the leaves carry a value, null included. -/
def Predicate.parameterCount : Predicate → Nat
  | .leaf condition => if condition.value.isSome then 1 else 0
  | .raw _ _ => 0
  | .group _ children => PredicateTree.parameterCount children

def PredicateTree.parameterCount : List Predicate → Nat
  | [] => 0
  | node :: rest => node.parameterCount + PredicateTree.parameterCount rest
end

end SelectCompiler
