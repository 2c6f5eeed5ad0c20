import SelectCompiler.Predicate.Basic

/-!
The tests of a filter in the order in which they are written, groups or not, and the texts that the
caller put into them.
-/

namespace SelectCompiler

/-- The test has a value to bind: a scalar that is not null. -/
def Condition.isBound (condition : Condition) : Bool :=
  condition.value.any Json.isBindable

mutual
/-- The tests of a predicate, depth first. -/
def Predicate.leaves : Predicate → List Condition
  | .leaf condition => [condition]
  | .raw _ _ => []
  | .group _ children => PredicateTree.leaves children

def PredicateTree.leaves : List Predicate → List Condition
  | [] => []
  | node :: rest => node.leaves ++ PredicateTree.leaves rest
end

mutual
/-- The fields, comparators and raw texts of a predicate, depth first. -/
def Predicate.texts : Predicate → List String
  | .leaf condition => [condition.field, condition.comparator]
  | .raw sql _ => [sql]
  | .group _ children => PredicateTree.texts children

def PredicateTree.texts : List Predicate → List String
  | [] => []
  | node :: rest => node.texts ++ PredicateTree.texts rest
end

/-- The tests that bind a value, depth first. -/
def Predicate.boundLeaves (node : Predicate) : List Condition :=
  node.leaves.filter Condition.isBound

def PredicateTree.boundLeaves (tree : PredicateTree) : List Condition :=
  (PredicateTree.leaves tree).filter Condition.isBound

@[simp] theorem PredicateTree.boundLeaves_cons (node : Predicate) (rest : List Predicate) :
    PredicateTree.boundLeaves (node :: rest) =
      node.boundLeaves ++ PredicateTree.boundLeaves rest := by
  simp [PredicateTree.boundLeaves, PredicateTree.leaves, Predicate.boundLeaves]

@[simp] theorem Predicate.boundLeaves_group (connective : Connective) (children : List Predicate) :
    (Predicate.group connective children).boundLeaves = PredicateTree.boundLeaves children := rfl

theorem Predicate.boundLeaves_leaf (condition : Condition) :
    (Predicate.leaf condition).boundLeaves = if condition.isBound then [condition] else [] := by
  simp [Predicate.boundLeaves, Predicate.leaves, List.filter_cons]

/-- Every test inside a predicate has the property. -/
def Predicate.Every (property : Condition → Prop) (node : Predicate) : Prop :=
  ∀ leaf ∈ node.leaves, property leaf

/-- Every test of a filter has the property. -/
def PredicateTree.Every (property : Condition → Prop) (tree : PredicateTree) : Prop :=
  ∀ leaf ∈ PredicateTree.leaves tree, property leaf

section Every

variable {property : Condition → Prop}

@[simp] theorem Predicate.every_leaf_iff {condition : Condition} :
    (Predicate.leaf condition).Every property ↔ property condition := by
  simp [Predicate.Every, Predicate.leaves]

@[simp] theorem Predicate.every_raw (sql : String) (connective : Connective) :
    (Predicate.raw sql connective).Every property := by
  simp [Predicate.Every, Predicate.leaves]

@[simp] theorem Predicate.every_group_iff {connective : Connective} {children : List Predicate} :
    (Predicate.group connective children).Every property ↔
      PredicateTree.Every property children := by
  simp [Predicate.Every, Predicate.leaves, PredicateTree.Every]

@[simp] theorem PredicateTree.every_nil : PredicateTree.Every property [] := by
  simp [PredicateTree.Every, PredicateTree.leaves]

@[simp] theorem PredicateTree.every_cons_iff {node : Predicate} {rest : List Predicate} :
    PredicateTree.Every property (node :: rest) ↔
      node.Every property ∧ PredicateTree.Every property rest := by
  simp [PredicateTree.Every, PredicateTree.leaves, Predicate.Every, or_imp, forall_and]

theorem PredicateTree.every_append_iff {first second : PredicateTree} :
    PredicateTree.Every property (first ++ second) ↔
      PredicateTree.Every property first ∧ PredicateTree.Every property second := by
  induction first with
  | nil => simp
  | cons node rest ih => rw [List.cons_append, every_cons_iff, ih, every_cons_iff, and_assoc]

end Every

end SelectCompiler
