import Mathlib.Control.Monad.Basic
import SelectCompiler.Proofs.Predicate.Revision
import SelectCompiler.Proofs.Where.Success

/-!
Clauses of revised filters. If revising the tests of a filter does nothing to their clauses but
rewrite the parameters, then it does nothing else to the clause of the filter. A revision value by
value and type by type is of this kind if null stays null and a scalar a scalar.
-/

namespace SelectCompiler.Where

namespace Clause

/-- The clause with its parameters rewritten. -/
def mapParameters (rewrite : Parameter → Parameter) (clause : Clause) : Clause :=
  { clause with parameters := clause.parameters.map rewrite }

variable {rewrite : Parameter → Parameter} (first second : Clause)

@[simp] theorem next_mapParameters : (first.mapParameters rewrite).next = first.next := rfl

theorem mapParameters_append :
    (first.append second).mapParameters rewrite =
      (first.mapParameters rewrite).append (second.mapParameters rewrite) := by
  simp only [mapParameters, append, List.map_append]

theorem mapParameters_behind (lead : String) :
    (first.behind lead).mapParameters rewrite = (first.mapParameters rewrite).behind lead := rfl

theorem mapParameters_parenthesized :
    first.parenthesized.mapParameters rewrite = (first.mapParameters rewrite).parenthesized := rfl

end Clause

variable {revision : Revision} {rewrite : Parameter → Parameter}

/-- The clause of the revised test is that of the test with its parameters rewritten. -/
def Rewrites (revision : Revision) (rewrite : Parameter → Parameter) (condition : Condition) :
    Prop :=
  ∀ index, compileCondition index (condition.revise revision) =
    Clause.mapParameters rewrite <$> compileCondition index condition

section Conditions

variable {change : Json → Json} {retype : TypeHint → TypeHint} {condition : Condition}

theorem compileCondition_of_absent (index : Nat)
    (absent : condition.value = none ∨ condition.value = some .null) :
    compileCondition index condition =
      nonBlank .conditionField condition.field >>= fun field =>
        standAlone index field (Text.trim condition.comparator) := by
  unfold compileCondition
  rcases absent with absent | absent <;> rw [absent]

theorem compileCondition_of_present (index : Nat) {value : Json}
    (given : condition.value = some value) (present : value ≠ .null) :
    compileCondition index condition =
      nonBlank .conditionField condition.field >>= fun field =>
        if value.isStructured then .error (.malformedPredicate (.structuredValue field))
        else bindValue index field (Text.trim condition.comparator) value condition.hint := by
  unfold compileCondition
  rw [given]
  cases value <;> first | contradiction | rfl

theorem map_standAlone (index : Nat) (field comparator : String) :
    Clause.mapParameters rewrite <$> standAlone index field comparator =
      standAlone index field comparator := by
  unfold standAlone
  split <;> rfl

theorem map_bindValue (index : Nat) (field comparator : String) (value : Json) (hint : TypeHint) :
    Clause.mapParameters
        (fun parameter => ⟨parameter.index, change parameter.value, retype parameter.hint⟩) <$>
      bindValue index field comparator value hint =
        bindValue index field comparator (change value) (retype hint) := by
  unfold bindValue
  dsimp only
  split <;> rfl

/-- A revision that keeps null as it is, and lists and objects among themselves, changes nothing
but the parameters. -/
theorem rewrites_pointwise (null : ∀ value, change value = .null ↔ value = .null)
    (structured : ∀ value, (change value).isStructured = value.isStructured) :
    Rewrites ⟨Option.map change, retype⟩
      (fun parameter => ⟨parameter.index, change parameter.value, retype parameter.hint⟩)
      condition := by
  intro index
  by_cases absent : condition.value = none ∨ condition.value = some .null
  · have stays : (condition.value.map change) = none ∨ condition.value.map change = some .null := by
      rcases absent with absent | absent <;> rw [absent]
      · exact .inl rfl
      · exact .inr (congrArg some ((null _).mpr rfl))
    rw [compileCondition_of_absent index absent, compileCondition_of_absent index stays, map_bind]
    exact bind_congr fun field => (map_standAlone ..).symm
  · rw [not_or] at absent
    obtain ⟨value, given⟩ := Option.ne_none_iff_exists'.mp absent.1
    have present : value ≠ .null := fun null => absent.2 (null ▸ given)
    have changed : condition.value.map change = some (change value) := by
      rw [given, Option.map_some]
    rw [compileCondition_of_present index given present,
      compileCondition_of_present index changed ((null value).not.mpr present), map_bind]
    refine bind_congr fun field => ?_
    rw [structured]
    split
    · rfl
    · exact (map_bindValue ..).symm

end Conditions

mutual
theorem compileNode_revise (index : Nat) : ∀ node : Predicate,
    node.Every (Rewrites revision rewrite) →
      compileNode index (node.revise revision) =
        Clause.mapParameters rewrite <$> compileNode index node
  | .leaf condition, own => Predicate.every_leaf_iff.mp own index
  | .raw sql connective, _ => by
    rw [Predicate.revise, compileNode, map_bind]
    rfl
  | .group connective [], _ => rfl
  | .group connective (node :: rest), own => by
    have siblings := compileSiblings_revise index (node :: rest) (Predicate.every_group_iff.mp own)
    rw [PredicateTree.revise] at siblings
    simp only [Predicate.revise, PredicateTree.revise, compileNode, List.isEmpty_cons,
      Bool.false_eq_true, ↓reduceIte, siblings, map_bind, bind_map_left, map_pure,
      Clause.mapParameters_parenthesized]
    rfl

theorem compileSiblings_revise (index : Nat) : ∀ nodes : List Predicate,
    PredicateTree.Every (Rewrites revision rewrite) nodes →
      compileSiblings index (PredicateTree.revise revision nodes) =
        Clause.mapParameters rewrite <$> compileSiblings index nodes
  | [], _ => rfl
  | node :: rest, own => by
    obtain ⟨head, tail⟩ := PredicateTree.every_cons_iff.mp own
    rw [PredicateTree.revise, compileSiblings, compileSiblings, compileNode_revise index node head,
      map_bind, bind_map_left]
    refine bind_congr fun first => ?_
    rw [map_bind, Clause.next_mapParameters, compileFollowing_revise first.next rest tail,
      bind_map_left]
    simp only [map_pure, Clause.mapParameters_append]

theorem compileFollowing_revise (index : Nat) : ∀ nodes : List Predicate,
    PredicateTree.Every (Rewrites revision rewrite) nodes →
      compileFollowing index (PredicateTree.revise revision nodes) =
        Clause.mapParameters rewrite <$> compileFollowing index nodes
  | [], _ => rfl
  | node :: rest, own => by
    obtain ⟨head, tail⟩ := PredicateTree.every_cons_iff.mp own
    rw [PredicateTree.revise, compileFollowing, compileFollowing,
      compileNode_revise index node head, node.connective_revise, map_bind, bind_map_left]
    refine bind_congr fun first => ?_
    rw [map_bind, Clause.next_mapParameters, compileFollowing_revise first.next rest tail,
      bind_map_left]
    simp only [map_pure, Clause.mapParameters_append, Clause.mapParameters_behind]
end

/-- What holds of the tests of a filter holds of the filter: its revised form has the same clause
with the parameters rewritten, or the same fault. -/
theorem compile_revise {tree : PredicateTree} (offset : Nat)
    (own : PredicateTree.Every (Rewrites revision rewrite) tree) :
    compile (PredicateTree.revise revision tree) offset =
      Option.map (Clause.mapParameters rewrite) <$> compile tree offset := by
  cases tree with
  | nil => rfl
  | cons node rest =>
    have siblings := compileSiblings_revise offset (node :: rest) own
    rw [PredicateTree.revise] at siblings ⊢
    rw [compile, List.isEmpty_cons, if_neg Bool.false_ne_true, siblings, compile, List.isEmpty_cons,
      if_neg Bool.false_ne_true]
    cases compileSiblings offset (node :: rest) <;> rfl

end SelectCompiler.Where
