import SelectCompiler.Proofs.Where.Revision
import SelectCompiler.Statement.Query

/-!
Queries of statements with revised filters. Where revising a test only rewrites the parameters of
its clause, revising the filter of a statement only rewrites the parameters of its query.
-/

namespace SelectCompiler

open Where (Parameter Clause Rewrites)

/-- The query with its parameters rewritten. -/
def Query.mapParameters (rewrite : Parameter → Parameter) (query : Query) : Query :=
  { query with parameters := query.parameters.map rewrite }

namespace Statement

variable {revision : Revision} {rewrite : Parameter → Parameter}

/-- The statement with the tests of its filter revised. -/
def revise (revision : Revision) (statement : Statement) : Statement :=
  { statement with filter := PredicateTree.revise revision statement.filter }

theorem revise_residual (residual : List String) :
    PredicateTree.revise revision (residual.map (Predicate.raw · .and)) =
      residual.map (Predicate.raw · .and) := by
  rw [PredicateTree.revise_eq_map, List.map_map]
  rfl

theorem filterAfter_revise (residual : List String) (filter : PredicateTree) :
    filterAfter residual (PredicateTree.revise revision filter) =
      PredicateTree.revise revision (filterAfter residual filter) := by
  unfold filterAfter
  rw [PredicateTree.length_revise]
  split
  · rfl
  · split
    · rw [PredicateTree.revise_mergeWrapped, revise_residual]
    · rw [PredicateTree.merge, PredicateTree.merge, PredicateTree.revise_mergeWith, revise_residual]

theorem compile_revise (statement : Statement)
    (own : ∀ condition, Rewrites revision rewrite condition) :
    (statement.revise revision).compile = Query.mapParameters rewrite <$> statement.compile := by
  simp only [compile, map_bind]
  refine bind_congr fun columns => bind_congr fun _ => bind_congr fun _ =>
    bind_congr fun resolution => bind_congr fun _ => ?_
  change Where.compile (filterAfter resolution.residual
    (PredicateTree.revise revision statement.filter)) statement.offset >>= _ = _
  rw [filterAfter_revise, Where.compile_revise _ fun condition _ => own condition, bind_map_left]
  refine bind_congr fun clause => congrArg Except.ok ?_
  cases clause <;> rfl

end Statement

end SelectCompiler
