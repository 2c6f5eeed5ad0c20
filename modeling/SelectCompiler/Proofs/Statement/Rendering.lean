import SelectCompiler.Proofs.Join.Texts
import SelectCompiler.Proofs.Statement.Moved
import SelectCompiler.Proofs.Where.Rendering

/-!
The text of a statement for any way of writing its placeholders. Only the filter has placeholders;
what stands before and behind it is the same however they are written, and a scan reads the parts
of the text one after the other.
-/

namespace SelectCompiler

open Placeholder (indices leadingDigits)
open Where (Clause Parameter)

/-- The text of a filter behind its keyword; nothing for an empty filter. -/
def PredicateTree.renderedWhere (mark : Nat → String) (index : Nat) (tree : PredicateTree) :
    String :=
  if tree.isEmpty then "" else " WHERE " ++ PredicateTree.rendered mark index tree

namespace PredicateTree

variable {mark : Nat → String} {index : Nat}

theorem leadingDigits_renderedWhere (tree : PredicateTree) :
    leadingDigits (renderedWhere mark index tree).toList = [] := by
  unfold renderedWhere
  split
  · rfl
  · exact Placeholder.leadingDigits_of_glue (by decide) _

theorem indices_renderedWhere (tree : PredicateTree) :
    indices (renderedWhere mark index tree) = indices (rendered mark index tree) := by
  unfold renderedWhere
  split
  · rename_i empty
    rw [List.isEmpty_iff.mp empty, rendered]
  · exact Placeholder.indices_append_of_plain (by decide) _

end PredicateTree

namespace Where

variable {offset : Nat} {tree : PredicateTree} {clause? : Option Clause}

theorem compileSiblings_of_compile (compiled : compile tree offset = .ok clause?) :
    compileSiblings offset tree = .ok (clause?.getD (.text "" offset)) := by
  cases clause? with
  | none =>
    rw [compile_eq_none_iff.mp compiled, compileSiblings]
    rfl
  | some clause => exact (compile_eq_some_iff.mp compiled).2

theorem elim_eq_renderedWhere (compiled : compile tree offset = .ok clause?) :
    (clause?.elim "" fun clause => " WHERE " ++ clause.sql) =
      PredicateTree.renderedWhere Placeholder.write offset tree := by
  cases clause? with
  | none =>
    rw [compile_eq_none_iff.mp compiled]
    rfl
  | some clause =>
    obtain ⟨filled, siblings⟩ := compile_eq_some_iff.mp compiled
    rw [PredicateTree.renderedWhere, List.isEmpty_eq_false_iff.mpr filled, Option.elim_some,
      compileSiblings_rendered tree siblings]
    rfl

/-- Moved conditions bind nothing: behind them the filter has the parameters that it has alone. -/
theorem compile_filterAfter_own {residual : List String} {filter : PredicateTree}
    (compiled : compile (Statement.filterAfter residual filter) offset = .ok clause?) :
    ∃ own, compileSiblings offset filter = .ok own ∧
      ∃ sql, clause?.getD (.text "" offset) = { own with sql := sql } := by
  by_cases moved : residual = []
  · rw [moved] at compiled
    exact ⟨_, compileSiblings_of_compile compiled, _, rfl⟩
  · obtain ⟨_, own, siblings, rfl⟩ := compile_filterAfter moved compiled
    exact ⟨own, siblings, _, rfl⟩

end Where

namespace Statement

variable {statement : Statement} {query : Query} {columns : String} {resolution : Resolution}
  {residual : List String} {filter : PredicateTree} {mark : Nat → String} {index : Nat}

/-- The text of a statement with the given select list and the given chain of tables. -/
def rendered (statement : Statement) (columns : String) (resolution : Resolution)
    (mark : Nat → String) (index : Nat) : String :=
  "SELECT " ++ columns ++ " FROM " ++ resolution.fromClause
    ++ PredicateTree.renderedWhere mark index (filterAfter resolution.residual statement.filter)
    ++ statement.ending

/-- The marks in the text of a statement that its caller put there, in order. -/
def ownMarks (statement : Statement) (columns : String) (resolution : Resolution) : List Nat :=
  indices columns ++ indices resolution.fromClause
    ++ (PredicateTree.texts (filterAfter resolution.residual statement.filter)).flatMap indices
    ++ indices statement.ending

section Scan

theorem leadingDigits_listClause (keyword : String) (entries : List String) :
    leadingDigits (listClause keyword entries).toList = [] := by
  unfold listClause
  split
  · rfl
  · rw [String.append_assoc, String.append_assoc]
    exact Placeholder.leadingDigits_of_glue (by decide) _

theorem leadingDigits_ending (statement : Statement) :
    leadingDigits statement.ending.toList = [] := by
  rw [ending, listClause]
  split
  · rw [String.empty_append]
    exact leadingDigits_listClause _ _
  · simp only [String.append_assoc]
    exact Placeholder.leadingDigits_of_glue (by decide) _

theorem indices_listClause {keyword : String} (plain : '%' ∉ keyword.toList)
    (entries : List String) :
    indices (listClause keyword entries) = entries.flatMap indices := by
  unfold listClause
  split
  · rename_i empty
    rw [List.isEmpty_iff.mp empty]
    rfl
  · have none : indices (" " ++ keyword) = [] := by
      rw [Placeholder.indices_append_of_plain (by decide),
        Placeholder.indices_eq_nil_of_plain plain]
    rw [Placeholder.indices_glue (by decide), none, List.nil_append,
      Placeholder.indices_intercalate (by decide)]

theorem indices_ending (statement : Statement) :
    indices statement.ending =
      statement.groupBy.flatMap indices ++ statement.orderBy.flatMap indices := by
  rw [ending, Placeholder.indices_append _ (leadingDigits_listClause _ _),
    indices_listClause (by decide), indices_listClause (by decide)]

theorem indices_rendered (statement : Statement) (columns : String) (resolution : Resolution)
    (mark : Nat → String) (index : Nat) :
    indices (statement.rendered columns resolution mark index) =
      indices columns ++ indices resolution.fromClause
        ++ indices (PredicateTree.rendered mark index
          (filterAfter resolution.residual statement.filter))
        ++ indices statement.ending := by
  rw [rendered, Placeholder.indices_append _ (leadingDigits_ending statement),
    Placeholder.indices_append _ (PredicateTree.leadingDigits_renderedWhere _),
    Placeholder.indices_glue (by decide), Placeholder.indices_append_of_plain (by decide),
    PredicateTree.indices_renderedWhere]

/-- If no percent sign is used to write the placeholders, the marks in the text of a statement are
those that its caller put there. -/
theorem indices_rendered_of_plain (plain : ∀ i, '%' ∉ (mark i).toList) :
    indices (statement.rendered columns resolution mark index) =
      statement.ownMarks columns resolution := by
  rw [indices_rendered, PredicateTree.indices_rendered plain, ownMarks]

end Scan

section Filter

theorem texts_withConnective (connective : Connective) (node : Predicate) :
    (node.withConnective connective).texts = node.texts := by
  cases node <;> rfl

theorem texts_conjunct (filter : PredicateTree) :
    PredicateTree.texts (conjunct filter) = PredicateTree.texts filter := by
  match filter with
  | [] => rfl
  | [node] =>
    have same : (node.withConnective .and).texts ++ [] = node.texts ++ [] := by
      rw [texts_withConnective]
    exact same
  | node :: next :: rest => exact List.append_nil (PredicateTree.texts (node :: next :: rest))

theorem texts_append (first second : List Predicate) :
    PredicateTree.texts (first ++ second) =
      PredicateTree.texts first ++ PredicateTree.texts second := by
  induction first with
  | nil => rfl
  | cons node rest ih =>
    rw [List.cons_append, PredicateTree.texts, PredicateTree.texts, ih, List.append_assoc]

theorem texts_raws (residual : List String) :
    PredicateTree.texts (residual.map (Predicate.raw · .and)) = residual := by
  induction residual with
  | nil => rfl
  | cons text rest ih => rw [List.map_cons, PredicateTree.texts, Predicate.texts, ih]; rfl

/-- Conditions that are moved in front of a filter add their texts to it. -/
theorem texts_filterAfter (residual : List String) (filter : PredicateTree) :
    PredicateTree.texts (filterAfter residual filter) = residual ++ PredicateTree.texts filter := by
  by_cases moved : residual = []
  · rw [moved]
    rfl
  · rw [filterAfter_eq moved, texts_append, texts_raws, texts_conjunct]

end Filter

theorem parameters_assembled (columns fromClause : String) (clause? : Option Clause) :
    (statement.assembled columns fromClause clause?).parameters =
      (clause?.getD (.text "" statement.offset)).parameters := by
  cases clause? <;> rfl

theorem next_assembled (columns fromClause : String) (clause? : Option Clause) :
    (statement.assembled columns fromClause clause?).next =
      (clause?.getD (.text "" statement.offset)).next := by
  cases clause? <;> rfl

/-- What a query is made of: the text of its statement with a percent sign before each index, and
the bound values of the statement's own filter, numbered from its offset on. -/
structure Written (statement : Statement) (query : Query) (columns : String)
    (resolution : Resolution) : Prop where
  selected : statement.selectList = .ok columns
  resolved : resolveJoins statement.strictJoins statement.tables statement.joins = .ok resolution
  text : query.sql = statement.rendered columns resolution Placeholder.write statement.offset
  scanned : indices query.sql = indices columns ++ indices resolution.fromClause
    ++ PredicateTree.placeholders statement.offset
      (filterAfter resolution.residual statement.filter)
    ++ indices statement.ending
  values : query.parameters.map (fun parameter => (some parameter.value, parameter.hint)) =
    (PredicateTree.boundLeaves statement.filter).map fun leaf => (leaf.value, leaf.hint)
  allocated : query.parameters.map Parameter.index =
    List.range' statement.offset (PredicateTree.boundLeaves statement.filter).length
  next : query.next = statement.offset + (PredicateTree.boundLeaves statement.filter).length
  count : (PredicateTree.boundLeaves (filterAfter resolution.residual statement.filter)).length =
    (PredicateTree.boundLeaves statement.filter).length
  fits : statement.offset < Text.wordSize → query.next < Text.wordSize

theorem exists_written (compiled : statement.compile = .ok query) :
    ∃ columns resolution, statement.Written query columns resolution := by
  obtain ⟨columns, resolution, clause?, selected, _, _, resolved, _, filtered, rfl⟩ :=
    compile_eq_ok_iff.mp compiled
  have whole := Where.compileSiblings_of_compile filtered
  obtain ⟨own, siblings, sql, same⟩ := Where.compile_filterAfter_own filtered
  have written := Where.compileSiblings_rendered _ whole
  have all := Where.compileSiblings_numbered _ whole
  have numbered := Where.compileSiblings_numbered _ siblings
  have parameters : (statement.assembled columns resolution.fromClause clause?).parameters =
      own.parameters := by rw [parameters_assembled, same]
  have next : (statement.assembled columns resolution.fromClause clause?).next = own.next := by
    rw [next_assembled, same]
  have text : (statement.assembled columns resolution.fromClause clause?).sql =
      statement.rendered columns resolution Placeholder.write statement.offset := by
    rw [sql_assembled, rendered, Where.elim_eq_renderedWhere filtered]
  refine ⟨columns, resolution, selected, resolved, text, ?_, ?_, ?_, ?_, ?_, ?_⟩
  · rw [text, indices_rendered, ← written, all.scanned]
  · rw [parameters, numbered.values]
  · rw [parameters, numbered.indices]
  · rw [next, numbered.next]
  · have shared : (clause?.getD (.text "" statement.offset)).next = own.next := by rw [same]
    rw [all.next, numbered.next] at shared
    exact Nat.add_left_cancel shared
  · rw [next]
    exact numbered.fits

end Statement

end SelectCompiler
