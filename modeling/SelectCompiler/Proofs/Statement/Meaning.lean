import Mathlib.Control.Monad.Basic
import SelectCompiler.Proofs.Statement.Moved
import SelectCompiler.Proofs.Where.Balance

/-!
What a filter with moved conditions says. All conditions that no step can carry have to hold, and
so has the filter of the statement. The text says so as long as no operand of an AND has an OR
outside of parentheses, and the filter has parentheses of its own only if it has several predicates.
-/

namespace SelectCompiler

open Boolean (Balanced Conjunctive holds)
open Where (Clause)

namespace Statement

/-- What stands beside another operand has no OR outside of parentheses: the moved conditions, and
the filter if it is one predicate. -/
structure Separate (residual : List String) (filter : PredicateTree) : Prop where
  moved : 2 ≤ residual.length + filter.length → ∀ text ∈ residual, Conjunctive text
  alone : ∀ node, filter = [node] → ∀ text ∈ node.bareTexts, Conjunctive text

variable {residual : List String} {filter : PredicateTree} {offset : Nat} {own : Clause}
  {truth : String → Bool}

theorem all_conjunctTexts (balanced : Balanced own.sql) :
    (conjunctTexts filter own.sql).all (holds truth) = (filter.isEmpty || holds truth own.sql) := by
  match filter with
  | [] => rfl
  | [node] => simp [conjunctTexts]
  | node :: next :: rest => simp [conjunctTexts, Boolean.holds_parens balanced]

theorem conjunctTexts_conjunctive (balanced : ∀ text ∈ PredicateTree.texts filter, Balanced text)
    (alone : ∀ node, filter = [node] → ∀ text ∈ node.bareTexts, Conjunctive text)
    (compiled : Where.compileSiblings offset filter = .ok own) :
    ∀ text ∈ conjunctTexts filter own.sql, Conjunctive text := by
  match filter with
  | [] => exact nofun
  | [node] =>
    rw [PredicateTree.texts, PredicateTree.texts, List.append_nil] at balanced
    exact List.forall_mem_singleton.mpr
      (Where.compileSiblings_conjunctive balanced (alone node rfl) compiled)
  | node :: next :: rest =>
    exact List.forall_mem_singleton.mpr
      (.parens (fun _ _ => rfl) (Where.compileSiblings_balanced _ balanced compiled))

/-- Moved conditions and a filter, joined by AND, hold together if they are separate. -/
theorem holds_conjuncts (moved : residual ≠ []) (separate : Separate residual filter)
    (conditions : ∀ text ∈ residual, Balanced text)
    (balanced : ∀ text ∈ PredicateTree.texts filter, Balanced text)
    (compiled : Where.compileSiblings offset filter = .ok own) :
    Balanced (" AND ".intercalate (residual.map Text.trim ++ conjunctTexts filter own.sql)) ∧
      ∀ truth, holds truth
          (" AND ".intercalate (residual.map Text.trim ++ conjunctTexts filter own.sql)) =
        (residual.all (holds truth) && (filter.isEmpty || holds truth own.sql)) := by
  have readable := Where.compileSiblings_balanced filter balanced compiled
  by_cases several : 2 ≤ residual.length + filter.length
  · have operands : ∀ text ∈ residual.map Text.trim ++ conjunctTexts filter own.sql,
        Conjunctive text := by
      refine List.forall_mem_append.mpr
        ⟨?_, conjunctTexts_conjunctive balanced separate.alone compiled⟩
      intro text member
      obtain ⟨condition, given, rfl⟩ := List.mem_map.mp member
      exact (separate.moved several condition given).trim
    obtain ⟨conjunctive, value⟩ := Boolean.holds_intercalate (by simp [moved]) operands
    refine ⟨conjunctive.balanced, fun truth => ?_⟩
    have trimmed : (residual.map Text.trim).all (holds truth) = residual.all (holds truth) := by
      simp only [List.all_map, Function.comp_def, Boolean.holds_trim]
    rw [value, List.all_append, trimmed, all_conjunctTexts readable]
  · -- One condition without a filter has nothing beside it and may say what it likes.
    obtain ⟨condition, rest, rfl⟩ := List.exists_cons_of_ne_nil moved
    have single : rest = [] ∧ filter = [] := by
      rw [← List.length_eq_zero_iff, ← List.length_eq_zero_iff]
      rw [List.length_cons] at several
      omega
    obtain ⟨rfl, rfl⟩ := single
    have text : " AND ".intercalate ([condition].map Text.trim ++ conjunctTexts [] own.sql) =
        Text.trim condition := String.intercalate_singleton
    rw [text]
    refine ⟨(conditions condition List.mem_cons_self).trim, fun truth => ?_⟩
    rw [Boolean.holds_trim]
    simp

/-- The condition of a query with moved conditions holds exactly if each of these holds on its own
and so does the filter of the statement. -/
theorem compile_holds_moved {statement : Statement} {query : Query} {resolution : Resolution}
    (resolved : resolveJoins statement.strictJoins statement.tables statement.joins =
      .ok resolution)
    (compiled : statement.compile = .ok query) (moved : resolution.residual ≠ [])
    (balanced : ∀ text ∈ resolution.residual ++ PredicateTree.texts statement.filter,
      Balanced text)
    (separate : Separate resolution.residual statement.filter) :
    ∃ columns clause own?, statement.selectList = .ok columns ∧
      Where.compile statement.filter statement.offset = .ok own? ∧
      query.sql = "SELECT " ++ columns ++ " FROM " ++ resolution.fromClause ++ " WHERE "
        ++ clause ++ statement.ending ∧
      Balanced clause ∧
      ∀ truth, holds truth clause =
        (resolution.residual.all (holds truth) && own?.all fun own => holds truth own.sql) := by
  obtain ⟨columns, found, clause?, listed, _, _, again, _, filtered, rfl⟩ :=
    compile_eq_ok_iff.mp compiled
  obtain rfl := Except.ok.inj (again.symm.trans resolved)
  obtain ⟨_, own, siblings, rfl⟩ := Where.compile_filterAfter moved filtered
  obtain ⟨conditions, texts⟩ := List.forall_mem_append.mp balanced
  obtain ⟨readable, value⟩ := holds_conjuncts moved separate conditions texts siblings
  refine ⟨columns, _, if statement.filter.isEmpty then none else some own, listed, ?_, ?_,
    readable, fun truth => ?_⟩
  · rw [Where.compile, siblings]
    split <;> rfl
  · rw [sql_assembled, Option.elim_some]
    simp only [String.append_assoc]
  · rw [value]
    cases statement.filter.isEmpty
    · rfl
    · exact congrArg _ (Bool.true_or _)

namespace PlainTables

def within : Join := (Join.unary .inner "b" "(a.x = b.x OR a.y = b.y)").fromTable "a"

def labelled : Join := (Join.unary .inner "b" "a.t = 'x OR (' AND lower(b.u) = a.u").fromTable "a"

/-- Both conditions are between plain tables, and each may stand beside the other. -/
def separate : Statement where
  selection := some (.raw "*")
  tables := [.ofText "a", .ofText "b"]
  joins := [.descriptor within, .descriptor labelled]
  filter := [.leaf (.eq "a.z" (.ofNat 1)), .raw "b.z IS NULL" .or]

def separateChain : Chain where
  links := [.table "a", .table "b"]
  introduced := [("a", 0), ("b", 1)]
  residual := [within.condition, labelled.condition]

def history : List Event := [.placed within, .placed labelled]

def separateQuery : Query where
  sql := "SELECT * FROM a, b WHERE (a.x = b.x OR a.y = b.y) " ++
    "AND a.t = 'x OR (' AND lower(b.u) = a.u AND (a.z = %0 OR b.z IS NULL)"
  parameters := [⟨0, .ofNat 1, .string⟩]
  next := 1

def either : Join := (Join.unary .inner "b" "a.x = b.x OR a.y = b.y").fromTable "a"

/-- The condition has an OR of its own and comes to stand beside the test of the filter. -/
def mixed : Statement where
  selection := some (.columns [("a", [.name "id"])])
  tables := [.ofText "a", .ofText "b"]
  joins := [.descriptor either]
  filter := [.leaf (.eq "a.z" (.ofNat 1))]

def mixedChain : Chain := { separateChain with residual := [either.condition] }

end PlainTables

open PlainTables in
theorem compile_holds_moved_plainTables :
    resolveJoins false separate.tables separate.joins = .ok ⟨separateChain, history⟩ ∧
      separate.compile = .ok separateQuery ∧
      ∃ clause, separateQuery.sql = "SELECT * FROM a, b WHERE " ++ clause ++ separate.ending ∧
        Balanced clause ∧
        ∀ truth, holds truth clause = ([within.condition, labelled.condition].all (holds truth) &&
          holds truth "a.z = %0 OR b.z IS NULL") := by
  have resolved : resolveJoins false separate.tables separate.joins =
      .ok ⟨separateChain, history⟩ := by decide +kernel
  have compiled : separate.compile = .ok separateQuery := by decide +kernel
  have selected : separate.selectList = .ok "*" := by decide +kernel
  have filtered : Where.compile separate.filter separate.offset = .ok (some
      ⟨"a.z = %0 OR b.z IS NULL", [⟨0, .ofNat 1, .string⟩], 1⟩) := by decide +kernel
  have lead : "SELECT " ++ "*" ++ " FROM " ++ separateChain.sql ++ " WHERE " =
      "SELECT * FROM a, b WHERE " := by decide +kernel
  have moved : (⟨separateChain, history⟩ : Resolution).residual ≠ [] := List.cons_ne_nil _ _
  have balanced : ∀ text ∈ separateChain.residual ++ PredicateTree.texts separate.filter,
      Balanced text := by decide +kernel
  have conjunctive : ∀ text ∈ separateChain.residual, Conjunctive text := by decide +kernel
  obtain ⟨columns, clause, own?, listed, own, split, readable, value⟩ :=
    compile_holds_moved resolved compiled moved balanced ⟨fun _ => conjunctive, nofun⟩
  obtain rfl := Except.ok.inj (own.symm.trans filtered)
  obtain rfl := Except.ok.inj (listed.symm.trans selected)
  exact ⟨resolved, compiled, clause, lead ▸ split, readable, value⟩

open PlainTables in
theorem moved_condition_escapes :
    resolveJoins false mixed.tables mixed.joins = .ok ⟨mixedChain, [.placed either]⟩ ∧
      (mixed.compile.toOption.map Query.sql) =
        some ("SELECT a.id FROM a, b WHERE " ++ "a.x = b.x OR a.y = b.y AND a.z = %0") ∧
      (∀ text ∈ mixedChain.residual ++ PredicateTree.texts mixed.filter, Balanced text) ∧
      holds (· == "a.x = b.x") "a.x = b.x OR a.y = b.y AND a.z = %0" = true ∧
      (mixedChain.residual.all (holds (· == "a.x = b.x")) &&
        holds (· == "a.x = b.x") "a.z = %0") = false := by
  decide +kernel

end Statement

end SelectCompiler
