import SelectCompiler.Predicate.Reading

/-!
Two filters put together, as filters or as the JSON that describes them. The addition follows the
base either predicate by predicate or as one group.
-/

namespace SelectCompiler

namespace PredicateTree

/-- The addition behind the base, its first predicate joined by `seam`. -/
def mergeWith (seam : Connective) (base addition : PredicateTree) : PredicateTree :=
  match addition with
  | [] => base
  | first :: rest => base ++ first.withConnective seam :: rest

def merge (base addition : PredicateTree) : PredicateTree :=
  mergeWith .and base addition

/-- The addition behind the base as one group; an empty addition adds nothing. -/
def mergeWrapped (connective : Connective) (base addition : PredicateTree) : PredicateTree :=
  if addition.isEmpty then base else base ++ [.group connective addition]

/-- Composition by the group of the given connective, or predicate by predicate without one. -/
def compose (wrap : Option Connective) (base addition : PredicateTree) : PredicateTree :=
  match wrap with
  | some connective => mergeWrapped connective base addition
  | none => merge base addition

end PredicateTree

/-- The key under which a statement document carries its filter. -/
def filterKey : String := "WHERES"

/-- The filter description inside a value: what stands under the filter key, or the value itself. -/
def filterIn (value : Json) : Json :=
  match value with
  | .object members => (Json.Members.get? members filterKey).getD value
  | _ => value

/-- Composition of descriptions. A document as base keeps all its other members and their order;
otherwise the canonical filter alone is the result. -/
def composeJson (wrap : Option Connective) (base addition : Json) : Except Error Json := do
  let baseTree ← PredicateTree.read .string (filterIn base)
  let additionTree ← PredicateTree.read .string (filterIn addition)
  let merged := (PredicateTree.compose wrap baseTree additionTree).toJson
  match base with
  | .object members =>
    if (Json.Members.get? members filterKey).isSome then
      return .object (Json.Members.insert members filterKey merged)
    else return merged
  | _ => return merged

end SelectCompiler
