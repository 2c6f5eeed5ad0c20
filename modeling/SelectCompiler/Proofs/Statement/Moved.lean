import SelectCompiler.Proofs.Text.Words
import SelectCompiler.Proofs.Where.Success
import SelectCompiler.Statement.Query

/-!
Join conditions moved to the filter. They are written first, joined by AND, and the filter of the
statement follows as one more operand, in parentheses if it has several predicates.
-/

namespace SelectCompiler

open Where (Clause)

namespace Statement

variable {statement : Statement} {query : Query} {residual : List String} {filter : PredicateTree}
  {offset : Nat} {clause : Clause}

/-- The query of a statement whose parts have their texts. -/
def assembled (statement : Statement) (columns fromClause : String) (clause? : Option Clause) :
    Query :=
  let clause := (clause?.map (Clause.behind " WHERE ")).getD (.text "" statement.offset)
  { sql := "SELECT " ++ columns ++ " FROM " ++ fromClause ++ clause.sql
      ++ listClause "GROUP BY" statement.groupBy ++ listClause "ORDER BY" statement.orderBy
    parameters := clause.parameters
    next := clause.next }

/-- What stands behind the filter of a statement. -/
def ending (statement : Statement) : String :=
  listClause "GROUP BY" statement.groupBy ++ listClause "ORDER BY" statement.orderBy

theorem sql_assembled (columns fromClause : String) (clause? : Option Clause) :
    (statement.assembled columns fromClause clause?).sql =
      "SELECT " ++ columns ++ " FROM " ++ fromClause
        ++ (clause?.elim "" fun clause => " WHERE " ++ clause.sql) ++ statement.ending := by
  cases clause? <;> simp only [assembled, ending, String.append_assoc] <;> rfl

/-- A statement has a query when each of its parts passes its check and has its text. -/
theorem compile_eq_ok_iff :
    statement.compile = .ok query ↔
      ∃ columns resolution clause?, statement.selectList = .ok columns ∧
        statement.checkSource = .ok () ∧ statement.checkRawJoins = .ok () ∧
        resolveJoins statement.strictJoins statement.tables statement.joins = .ok resolution ∧
        statement.checkSelected resolution.tables = .ok () ∧
        Where.compile (filterAfter resolution.residual statement.filter) statement.offset =
          .ok clause? ∧
        query = statement.assembled columns resolution.fromClause clause? := by
  simp only [compile, bind_eq_ok_iff, pure_eq_ok_iff, assembled]
  grind

/-- A filter as one more operand behind others that all must hold. -/
def conjunct : PredicateTree → PredicateTree
  | [] => []
  | [node] => [node.withConnective .and]
  | several => [.group .and several]

theorem filterAfter_eq (moved : residual ≠ []) :
    filterAfter residual filter = residual.map (Predicate.raw · .and) ++ conjunct filter := by
  rw [filterAfter, List.isEmpty_eq_false_iff.mpr moved]
  match filter with
  | [] => simp [PredicateTree.merge, PredicateTree.mergeWith, conjunct]
  | [node] => simp [PredicateTree.merge, PredicateTree.mergeWith, conjunct]
  | node :: next :: rest => simp [PredicateTree.mergeWrapped, conjunct]

/-- The text of a filter as one more operand, given its text on its own. -/
def conjunctTexts (filter : PredicateTree) (sql : String) : List String :=
  match filter with
  | [] => []
  | [_] => [sql]
  | _ => ["(" ++ sql ++ ")"]

end Statement

namespace Where

variable {index : Nat} {clause : Clause}

/-- The texts, each behind an AND. -/
def following (texts : List String) : String :=
  String.join (texts.map (" AND " ++ ·))

@[simp] theorem following_nil : following [] = "" := rfl

theorem following_cons (first : String) (rest : List String) :
    following (first :: rest) = " AND " ++ first ++ following rest := by
  rw [following, List.map_cons, String.join_cons, following]

theorem following_append (first second : List String) :
    following (first ++ second) = following first ++ following second := by
  rw [following, List.map_append, String.join_append, following, following]

theorem intercalate_cons (first : String) (rest : List String) :
    " AND ".intercalate (first :: rest) = first ++ following rest :=
  Text.intercalate_cons " AND " first rest

/-- Raw conditions are written as they are, without the blanks around them, and bind nothing. -/
theorem compileFollowing_raws {texts : List String} {nodes : List Predicate}
    (compiled : compileFollowing index (texts.map (Predicate.raw · .and) ++ nodes) = .ok clause) :
    (∀ text ∈ texts, Text.trim text ≠ "") ∧
      ∃ last, compileFollowing index nodes = .ok last ∧
        clause = { last with sql := following (texts.map Text.trim) ++ last.sql } := by
  induction texts generalizing clause with
  | nil => exact ⟨nofun, clause, compiled, by simp⟩
  | cons text rest ih =>
    obtain ⟨first, others, head, tail, rfl⟩ := compileFollowing_cons_eq_ok_iff.mp compiled
    obtain ⟨visible, rfl⟩ := compileNode_raw_eq_ok_iff.mp head
    obtain ⟨each, last, ended, rfl⟩ := ih tail
    refine ⟨List.forall_mem_cons.mpr ⟨visible, each⟩, last, ended, ?_⟩
    rw [List.map_cons, following_cons]
    simp only [Clause.append, Clause.behind, Clause.text, List.nil_append, String.append_assoc]
    rfl

/-- The filter behind other conditions has the text that it has on its own, as one operand. -/
theorem compileFollowing_conjunct {filter : PredicateTree}
    (compiled : compileFollowing index (Statement.conjunct filter) = .ok clause) :
    ∃ own, compileSiblings index filter = .ok own ∧
      clause = { own with sql := following (Statement.conjunctTexts filter own.sql) } := by
  match filter with
  | [] => exact ⟨_, rfl, compileFollowing_nil_eq_ok_iff.mp compiled⟩
  | [node] =>
    obtain ⟨first, others, head, tail, rfl⟩ := compileFollowing_cons_eq_ok_iff.mp compiled
    obtain rfl := compileFollowing_nil_eq_ok_iff.mp tail
    rw [compileNode_withConnective] at head
    refine ⟨first.append (.text "" first.next),
      compileSiblings_cons_eq_ok_iff.mpr ⟨first, _, head, rfl, rfl⟩, ?_⟩
    have joined : (node.withConnective .and).connective = .and := by cases node <;> rfl
    simp [Clause.append, Clause.behind, Clause.text, Statement.conjunctTexts, following_cons,
      joined, Connective.sql]
  | node :: next :: rest =>
    obtain ⟨first, others, head, tail, rfl⟩ := compileFollowing_cons_eq_ok_iff.mp compiled
    obtain rfl := compileFollowing_nil_eq_ok_iff.mp tail
    obtain ⟨_, own, siblings, _, rfl⟩ := compileNode_group_eq_ok_iff.mp head
    refine ⟨own, siblings, ?_⟩
    simp [Clause.append, Clause.behind, Clause.text, Clause.parenthesized,
      Statement.conjunctTexts, following_cons, Predicate.connective, Connective.sql]

/-- The clause of a filter with moved conditions: these first, each without the blanks around it,
then the text of the filter as one more operand, and no other parameters than those of the
filter. -/
theorem compile_filterAfter {residual : List String} {filter : PredicateTree} {offset : Nat}
    {clause? : Option Clause} (moved : residual ≠ [])
    (compiled : compile (Statement.filterAfter residual filter) offset = .ok clause?) :
    (∀ text ∈ residual, Text.trim text ≠ "") ∧
      ∃ own, compileSiblings offset filter = .ok own ∧
        clause? = some { own with
          sql := " AND ".intercalate
            (residual.map Text.trim ++ Statement.conjunctTexts filter own.sql) } := by
  obtain ⟨text, rest, rfl⟩ := List.exists_cons_of_ne_nil moved
  rw [Statement.filterAfter_eq moved] at compiled
  obtain ⟨clause, rfl⟩ : ∃ clause, clause? = some clause := by
    cases clause? with
    | none => exact nomatch compile_eq_none_iff.mp compiled
    | some clause => exact ⟨clause, rfl⟩
  obtain ⟨_, siblings⟩ := compile_eq_some_iff.mp compiled
  obtain ⟨first, others, head, tail, rfl⟩ := compileSiblings_cons_eq_ok_iff.mp siblings
  obtain ⟨visible, rfl⟩ := compileNode_raw_eq_ok_iff.mp head
  obtain ⟨each, last, ended, rfl⟩ := compileFollowing_raws tail
  obtain ⟨own, alone, rfl⟩ := compileFollowing_conjunct ended
  refine ⟨List.forall_mem_cons.mpr ⟨visible, each⟩, own, alone, ?_⟩
  rw [List.map_cons, List.cons_append, intercalate_cons, following_append]
  rfl

end Where

end SelectCompiler
