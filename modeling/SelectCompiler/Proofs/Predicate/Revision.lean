import SelectCompiler.Predicate.Composition
import SelectCompiler.Proofs.Predicate.Leaves

/-!
Filters with the values and types of their tests revised. Nothing else of a filter changes with
them, so a revision may be made before or after filters are put together.
-/

namespace SelectCompiler

/-- What is made of the value and of the type of a test. -/
structure Revision where
  value : Option Json → Option Json := id
  hint : TypeHint → TypeHint := id

def Condition.revise (revision : Revision) (condition : Condition) : Condition :=
  { condition with
    value := revision.value condition.value
    hint := revision.hint condition.hint }

mutual
/-- The predicate with every test in it revised. -/
def Predicate.revise (revision : Revision) : Predicate → Predicate
  | .leaf condition => .leaf (condition.revise revision)
  | .raw sql connective => .raw sql connective
  | .group connective children => .group connective (PredicateTree.revise revision children)

def PredicateTree.revise (revision : Revision) : List Predicate → List Predicate
  | [] => []
  | node :: rest => node.revise revision :: PredicateTree.revise revision rest
end

variable {revision : Revision}

theorem Condition.revise_eq_self_iff {condition : Condition} :
    condition.revise revision = condition ↔
      revision.value condition.value = condition.value ∧
        revision.hint condition.hint = condition.hint := by
  cases condition
  simp [revise]

namespace Predicate

@[simp] theorem connective_revise (node : Predicate) :
    (node.revise revision).connective = node.connective := by
  cases node <;> rfl

theorem revise_withConnective (connective : Connective) (node : Predicate) :
    (node.withConnective connective).revise revision =
      (node.revise revision).withConnective connective := by
  cases node <;> rfl

end Predicate

namespace PredicateTree

theorem revise_eq_map (tree : PredicateTree) :
    revise revision tree = tree.map (Predicate.revise revision) := by
  induction tree with
  | nil => rfl
  | cons node rest ih => rw [revise, ih, List.map_cons]

theorem length_revise (tree : PredicateTree) : (revise revision tree).length = tree.length := by
  rw [revise_eq_map, List.length_map]

theorem revise_append (first second : PredicateTree) :
    revise revision (first ++ second) = revise revision first ++ revise revision second := by
  simp only [revise_eq_map, List.map_append]

theorem revise_mergeWith (seam : Connective) (base addition : PredicateTree) :
    revise revision (mergeWith seam base addition) =
      mergeWith seam (revise revision base) (revise revision addition) := by
  cases addition with
  | nil => rfl
  | cons node rest =>
    change revise revision (base ++ node.withConnective seam :: rest) = _
    rw [revise_append, revise, Predicate.revise_withConnective]
    rfl

theorem revise_mergeWrapped (connective : Connective) (base addition : PredicateTree) :
    revise revision (mergeWrapped connective base addition) =
      mergeWrapped connective (revise revision base) (revise revision addition) := by
  cases addition with
  | nil => rfl
  | cons node rest =>
    change revise revision (base ++ [.group connective (node :: rest)]) = _
    rw [revise_append]
    rfl

theorem revise_compose (wrap : Option Connective) (base addition : PredicateTree) :
    revise revision (compose wrap base addition) =
      compose wrap (revise revision base) (revise revision addition) := by
  cases wrap with
  | none => exact revise_mergeWith .and base addition
  | some connective => exact revise_mergeWrapped connective base addition

end PredicateTree

mutual
theorem Predicate.revise_eq_self_iff : ∀ node : Predicate,
    node.revise revision = node ↔ node.Every fun condition => condition.revise revision = condition
  | .leaf condition => by rw [Predicate.revise, Predicate.leaf.injEq, Predicate.every_leaf_iff]
  | .raw sql connective => by simp [Predicate.revise]
  | .group connective children => by
    rw [Predicate.every_group_iff, ← PredicateTree.revise_eq_self_iff children, Predicate.revise,
      Predicate.group.injEq]
    exact and_iff_right rfl

/-- A filter is as it was exactly when each of its tests is. -/
theorem PredicateTree.revise_eq_self_iff : ∀ nodes : List Predicate,
    PredicateTree.revise revision nodes = nodes ↔
      PredicateTree.Every (fun condition => condition.revise revision = condition) nodes
  | [] => by simp [PredicateTree.revise]
  | node :: rest => by
    rw [PredicateTree.every_cons_iff, ← Predicate.revise_eq_self_iff node,
      ← PredicateTree.revise_eq_self_iff rest, PredicateTree.revise, List.cons.injEq]
end

end SelectCompiler
