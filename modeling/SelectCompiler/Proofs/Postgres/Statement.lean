import Mathlib.Control.Monad.Basic
import SelectCompiler.Postgres.Statement
import SelectCompiler.Proofs.Postgres.Filter
import SelectCompiler.Proofs.Statement.Texts

/-!
Statements in the form that Postgres takes. If no mark in the caller's texts looks like an allocated
placeholder, the text is that of the statement with `$1`, `$2` and so on for its placeholders, and
if one does, it is not. The values are those of the tests in order, up to the first test whose value
has the wrong type, whatever dates are read with.
-/

namespace SelectCompiler

open Placeholder (indices renumber rewritten dollar lastPosition? Free)
open Text (Within)
open Where (Parameter)

section Values

/-- The value that a test is bound to, if its hint can make one of what it is compared with. -/
def Condition.bindValue? (readers : Calendar.Readers) (leaf : Condition) : Option BindValue :=
  leaf.value.bind (BindValue.ofJson? readers leaf.hint)

/-- The fault is that of the first test whose value has the wrong type; the tests are numbered from
`index` on. -/
def Mistyped (readers : Calendar.Readers) (index : Nat) (leaves : List Condition)
    (fault : Error) : Prop :=
  ∃ before leaf after value, leaves = before ++ leaf :: after ∧
    (∀ earlier ∈ before, (earlier.bindValue? readers).isSome = true) ∧
    leaf.value = some value ∧ leaf.bindValue? readers = none ∧
    fault = .parameterType (index + before.length) leaf.hint.name
      (BindValue.expectation leaf.hint) value

variable {readers : Calendar.Readers}

theorem Mistyped.cons {leaf : Condition} {leaves : List Condition} {index : Nat} {fault : Error}
    (bound : (leaf.bindValue? readers).isSome = true)
    (first : Mistyped readers (index + 1) leaves fault) :
    Mistyped readers index (leaf :: leaves) fault := by
  obtain ⟨before, other, after, found, rfl, earlier, compared, mistyped, rfl⟩ := first
  refine ⟨leaf :: before, other, after, found, rfl, List.forall_mem_cons.mpr ⟨bound, earlier⟩,
    compared, mistyped, ?_⟩
  rw [List.length_cons, Nat.add_assoc, Nat.add_comm 1]

/-- Parameters are bound one after the other, up to the first that has the wrong type. -/
theorem bound_or_mistyped {parameters : List Parameter} {leaves : List Condition} {index : Nat}
    (values : parameters.map (fun parameter => (some parameter.value, parameter.hint)) =
      leaves.map fun leaf => (leaf.value, leaf.hint))
    (allocated : parameters.map Parameter.index = List.range' index leaves.length) :
    (∃ bound, leaves.map (Condition.bindValue? readers) = bound.map some ∧
      parameters.mapM (BindValue.ofParameter · readers) = .ok bound) ∨
    ∃ fault, Mistyped readers index leaves fault ∧
      parameters.mapM (BindValue.ofParameter · readers) = .error fault := by
  induction parameters generalizing leaves index with
  | nil =>
    rw [List.map_nil, eq_comm, List.map_eq_nil_iff] at values
    rw [values]
    exact .inl ⟨[], rfl, rfl⟩
  | cons parameter rest ih =>
    rw [List.map_cons, eq_comm, List.map_eq_cons_iff] at values
    obtain ⟨leaf, others, rfl, same, values⟩ := values
    obtain ⟨given, hint⟩ := Prod.mk.inj same
    rw [List.map_cons, List.length_cons, List.range'_succ, List.cons.injEq] at allocated
    obtain ⟨here, allocated⟩ := allocated
    have own : leaf.bindValue? readers =
        BindValue.ofJson? readers parameter.hint parameter.value := by
      rw [Condition.bindValue?, given, hint, Option.bind_some]
    rw [List.mapM_cons, BindValue.ofParameter]
    cases coerced : BindValue.ofJson? readers parameter.hint parameter.value with
    | none =>
      refine .inr ⟨_, ⟨[], leaf, others, parameter.value, rfl, nofun, given, ?_, rfl⟩, ?_⟩
      · rw [own, coerced]
      · rw [List.length_nil, Nat.add_zero, hint, ← here]
        rfl
    | some value =>
      rw [coerced] at own
      obtain ⟨bound, all, succeeded⟩ | ⟨fault, first, failed⟩ := ih values.symm allocated
      · refine .inl ⟨value :: bound, ?_, ?_⟩
        · rw [List.map_cons, List.map_cons, own, all]
        · rw [succeeded]
          rfl
      · refine .inr ⟨fault, first.cons (by rw [own, Option.isSome_some]), ?_⟩
        rw [failed]
        rfl

/-- Parameters are all bound exactly if each test has a value of the right type. -/
theorem mapM_ofParameter_eq_ok_iff {parameters : List Parameter} {leaves : List Condition}
    {index : Nat} {bound : List BindValue}
    (values : parameters.map (fun parameter => (some parameter.value, parameter.hint)) =
      leaves.map fun leaf => (leaf.value, leaf.hint))
    (allocated : parameters.map Parameter.index = List.range' index leaves.length) :
    parameters.mapM (BindValue.ofParameter · readers) = .ok bound ↔
      leaves.map (Condition.bindValue? readers) = bound.map some := by
  obtain ⟨others, all, succeeded⟩ | ⟨fault, first, failed⟩ :=
    @bound_or_mistyped readers _ _ _ values allocated
  · rw [succeeded, Except.ok.injEq, all]
    exact (List.map_inj_right fun _ _ => Option.some.inj).symm
  · obtain ⟨before, leaf, after, _, rfl, _, _, mistyped, _⟩ := first
    rw [failed]
    refine ⟨nofun, fun all => ?_⟩
    have present : none ∈ bound.map some := by
      rw [← all, ← mistyped]
      exact List.mem_map_of_mem (by simp)
    obtain ⟨value, _, same⟩ := List.mem_map.mp present
    contradiction

theorem Query.toPostgres_eq_map (query : Query) (readers : Calendar.Readers) :
    query.toPostgres readers =
      (query.parameters.mapM (BindValue.ofParameter · readers)).map fun values =>
        ⟨renumber (lastPosition? (query.parameters.map Parameter.index)) query.sql, values⟩ := by
  rw [toPostgres]
  cases query.parameters.mapM (BindValue.ofParameter · readers) <;> rfl

theorem Query.sql_of_toPostgres {query : Query} {postgres : PostgresStatement}
    (bound : query.toPostgres readers = .ok postgres) :
    postgres.sql =
      renumber (lastPosition? (query.parameters.map Parameter.index)) query.sql := by
  rw [toPostgres_eq_map] at bound
  cases coerced : query.parameters.mapM (BindValue.ofParameter · readers) with
  | error fault =>
    rw [coerced] at bound
    contradiction
  | ok values =>
    rw [coerced] at bound
    rw [← Except.ok.inj bound]

end Values

namespace Statement

variable {statement : Statement} {query : Query} {columns : String} {resolution : Resolution}
  {position? : Nat → Option Nat} {index : Nat} {readers : Calendar.Readers}

/-- If no mark of the caller has a position, only the placeholders of the filter are rewritten. -/
theorem renumber_rendered
    (free : ∀ mark ∈ statement.ownMarks columns resolution, position? mark = none)
    (fits : index + (PredicateTree.boundLeaves
      (filterAfter resolution.residual statement.filter)).length ≤ Text.wordSize) :
    renumber position? (statement.rendered columns resolution Placeholder.write index) =
      statement.rendered columns resolution (rewritten position?) index := by
  simp only [ownMarks, List.forall_mem_append, List.mem_flatMap] at free
  obtain ⟨⟨⟨list, chain⟩, filter⟩, ending⟩ := free
  have conditions : renumber position? (PredicateTree.renderedWhere Placeholder.write index
        (filterAfter resolution.residual statement.filter)) =
      PredicateTree.renderedWhere (rewritten position?) index
        (filterAfter resolution.residual statement.filter) := by
    unfold PredicateTree.renderedWhere
    split
    · exact Placeholder.renumber_eq_self (List.forall_mem_nil _)
    · rw [Placeholder.renumber_append_of_plain (by decide),
        PredicateTree.renumber_rendered _ ?_ fits]
      exact fun text member mark inside => filter mark ⟨text, member, inside⟩
  rw [rendered, Placeholder.renumber_append _ (leadingDigits_ending statement),
    Placeholder.renumber_append _ (PredicateTree.leadingDigits_renderedWhere _),
    Placeholder.renumber_glue (by decide), Placeholder.renumber_append_of_plain (by decide),
    Placeholder.renumber_eq_self list, Placeholder.renumber_eq_self chain,
    Placeholder.renumber_eq_self ending, conditions, rendered]

theorem rendered_congr {mark other : Nat → String} {start : Nat}
    (same : ∀ i < (PredicateTree.boundLeaves
      (filterAfter resolution.residual statement.filter)).length,
        mark (index + i) = other (start + i)) :
    statement.rendered columns resolution mark index =
      statement.rendered columns resolution other start := by
  rw [rendered, rendered, PredicateTree.renderedWhere, PredicateTree.renderedWhere,
    PredicateTree.rendered_congr _ same]

namespace Written

/-- The positions of the placeholders that were allocated, and of no others. -/
theorem position?_eq (written : statement.Written query columns resolution) (index : Nat) :
    lastPosition? (query.parameters.map Parameter.index) index =
      if statement.offset ≤ index ∧ index < query.next then some (index - statement.offset + 1)
      else none := by
  rw [written.allocated, Placeholder.lastPosition?_range', written.next]

/-- Postgres gets the text of the statement with its placeholders numbered from one exactly if no
mark of the caller is the index of a placeholder. -/
theorem renumber_eq_rendered_iff (written : statement.Written query columns resolution)
    (word : statement.offset < Text.wordSize) :
    renumber (lastPosition? (query.parameters.map Parameter.index)) query.sql =
        statement.rendered columns resolution dollar 1 ↔
      ∀ mark ∈ statement.ownMarks columns resolution,
        ¬(statement.offset ≤ mark ∧ mark < query.next) := by
  have bounded := written.fits word
  rw [written.next] at bounded
  constructor
  · intro same mark own inside
    rw [← indices_rendered_of_plain Placeholder.percent_not_mem_dollar, ← same,
      Placeholder.indices_renumber, List.mem_filter, written.position?_eq, if_pos inside] at own
    exact absurd own.2 Bool.false_ne_true
  · intro apart
    rw [written.text, renumber_rendered]
    · refine rendered_congr fun i counted => ?_
      rw [written.count] at counted
      have inside : statement.offset ≤ statement.offset + i ∧
          statement.offset + i < query.next := by
        rw [written.next]
        omega
      rw [rewritten, written.position?_eq, if_pos inside, Nat.add_sub_cancel_left, Nat.add_comm i]
      rfl
    · intro mark own
      rw [written.position?_eq, if_neg (apart mark own)]
    · rw [written.count]
      exact Nat.le_of_lt bounded

/-- Between texts without marks the scan finds the placeholders of the parameters, in order. -/
theorem indices_eq (written : statement.Written query columns resolution)
    (silent : ∀ text ∈ statement.texts, indices text = []) :
    indices query.sql =
      List.range' statement.offset (PredicateTree.boundLeaves statement.filter).length := by
  have none := written.ownMarks_eq_nil silent
  rw [ownMarks, List.append_eq_nil_iff, List.append_eq_nil_iff, List.append_eq_nil_iff] at none
  obtain ⟨⟨⟨list, chain⟩, filter⟩, ending⟩ := none
  rw [written.scanned, list, chain, ending, PredicateTree.placeholders_of_indices _
    (List.flatMap_eq_nil_iff.mp filter), written.count, List.append_nil]
  rfl

/-- Between texts without marks the placeholders of a query are numbered one after the other. -/
theorem renumber_eq_numbered (written : statement.Written query columns resolution)
    (silent : ∀ text ∈ statement.texts, indices text = []) :
    renumber (lastPosition? (query.parameters.map Parameter.index)) query.sql =
      Placeholder.numbered query.sql := by
  apply Placeholder.renumber_eq_numbered
  rw [written.indices_eq silent, List.length_range', List.range'_eq_map_range,
    List.range'_eq_map_range, List.map_map, List.map_map]
  refine List.map_congr_left fun i counted => ?_
  rw [List.mem_range] at counted
  have inside : statement.offset ≤ statement.offset + i ∧ statement.offset + i < query.next := by
    rw [written.next]
    omega
  rw [Function.comp_apply, Function.comp_apply, written.position?_eq, if_pos inside,
    Nat.add_sub_cancel_left, Nat.add_comm i]

theorem toPostgres_eq_ok_iff (written : statement.Written query columns resolution)
    (word : statement.offset < Text.wordSize)
    (silent : ∀ text ∈ statement.texts, indices text = []) {postgres : PostgresStatement} :
    query.toPostgres readers = .ok postgres ↔
      ∃ values, (PredicateTree.boundLeaves statement.filter).map (Condition.bindValue? readers) =
          values.map some ∧
        postgres = ⟨statement.rendered columns resolution dollar 1, values⟩ := by
  have same := (written.renumber_eq_rendered_iff word).mpr (by
    rw [written.ownMarks_eq_nil silent]
    exact nofun)
  rw [Query.toPostgres_eq_map, same]
  refine map_eq_ok_iff.trans ?_
  simp only [mapM_ofParameter_eq_ok_iff written.values written.allocated]

end Written

/-- If no text of the caller holds a percent sign with a digit behind it, the placeholders in the
text of a query are those of its parameters, in order. Then Postgres gets this text with its first
placeholder replaced by `$1`, its second by `$2` and so on, and the values of the tests depth first,
unless one of these has the wrong type. The offset of the numbering makes no difference. -/
theorem toPostgres_numbers_in_order (readers : Calendar.Readers)
    (word : statement.offset < Text.wordSize)
    (unmarked : ∀ text ∈ statement.texts, ¬Placeholder.Marked text)
    (compiled : statement.compile = .ok query) :
    indices query.sql =
        List.range' statement.offset (PredicateTree.boundLeaves statement.filter).length ∧
      ((∃ values,
          (PredicateTree.boundLeaves statement.filter).map (Condition.bindValue? readers) =
            values.map some ∧
          query.toPostgres readers = .ok ⟨Placeholder.numbered query.sql, values⟩) ∨
        ∃ fault,
          Mistyped readers statement.offset (PredicateTree.boundLeaves statement.filter) fault ∧
          query.toPostgres readers = .error fault) ∧
      ∀ (offset : Nat) (other : Query), offset < Text.wordSize →
        { statement with offset := offset }.compile = .ok other →
        ∀ postgres, other.toPostgres readers = .ok postgres ↔
          query.toPostgres readers = .ok postgres := by
  obtain ⟨columns, resolution, written⟩ := exists_written compiled
  have silent : ∀ text ∈ statement.texts, indices text = [] :=
    fun text member => Placeholder.indices_of_unmarked (unmarked text member)
  refine ⟨written.indices_eq silent, ?_, ?_⟩
  · rw [Query.toPostgres_eq_map, written.renumber_eq_numbered silent]
    obtain ⟨values, all, succeeded⟩ | ⟨fault, first, failed⟩ :=
      @bound_or_mistyped readers _ _ _ written.values written.allocated
    · exact .inl ⟨values, all, by rw [succeeded]; rfl⟩
    · exact .inr ⟨fault, first, by rw [failed]; rfl⟩
  · intro offset other fits recompiled postgres
    obtain ⟨_, _, again⟩ := exists_written recompiled
    obtain rfl := Except.ok.inj (again.selected.symm.trans written.selected)
    obtain rfl := Except.ok.inj (again.resolved.symm.trans written.resolved)
    rw [written.toPostgres_eq_ok_iff word silent, again.toPostgres_eq_ok_iff fits silent]
    rfl

namespace ActiveNeeds

/-- Two values are bound, one of them in a group, between texts with percent signs. -/
def search : Statement where
  selection := some (.columns
    [("n", [.name "id"]), ("p", [.expression "COUNT(*)" (some "total")])])
  tables := [.ofText "needs n"]
  joins := [.descriptor (.unary .left "projects p" "p.id = n.project_id")]
  filter := [.raw "n.title LIKE '%x%'" .and,
    .leaf ⟨"n.active", "=", some (.ofNat 1), .integer, .and⟩,
    .group .or [.leaf ⟨"p.name", "", some (.string "50%1"), .string, .and⟩,
      .raw "p.ended IS NULL" .and]]
  groupBy := ["n.id", "p.id"]
  orderBy := ["n.id DESC"]
  offset := 9

def numbered : Query where
  sql := "SELECT n.id, COUNT(*) AS total FROM needs n " ++
    "LEFT JOIN projects p ON p.id = n.project_id " ++
    "WHERE n.title LIKE '%x%' AND n.active = %9 OR (p.name = %10 AND p.ended IS NULL) " ++
    "GROUP BY n.id, p.id ORDER BY n.id DESC"
  parameters := [⟨9, .ofNat 1, .integer⟩, ⟨10, .string "50%1", .string⟩]
  next := 11

def postgres : PostgresStatement where
  sql := "SELECT n.id, COUNT(*) AS total FROM needs n " ++
    "LEFT JOIN projects p ON p.id = n.project_id " ++
    "WHERE n.title LIKE '%x%' AND n.active = $1 OR (p.name = $2 AND p.ended IS NULL) " ++
    "GROUP BY n.id, p.id ORDER BY n.id DESC"
  values := [.int 1, .text "50%1"]

/-- The same query numbered from another offset. -/
def moved : Query where
  sql := "SELECT n.id, COUNT(*) AS total FROM needs n " ++
    "LEFT JOIN projects p ON p.id = n.project_id " ++
    "WHERE n.title LIKE '%x%' AND n.active = %0 OR (p.name = %1 AND p.ended IS NULL) " ++
    "GROUP BY n.id, p.id ORDER BY n.id DESC"
  parameters := [⟨0, .ofNat 1, .integer⟩, ⟨1, .string "50%1", .string⟩]
  next := 2

end ActiveNeeds

open ActiveNeeds in
theorem toPostgres_numbers_in_order_activeNeeds :
    search.compile = .ok numbered ∧ indices numbered.sql = [9, 10] ∧
      numbered.toPostgres = .ok postgres ∧
      { search with offset := 0 }.compile = .ok moved ∧ moved.toPostgres = .ok postgres := by
  have compiled : search.compile = .ok numbered := by decide +kernel
  have recompiled : { search with offset := 0 }.compile = .ok moved := by decide +kernel
  have unmarked : ∀ text ∈ search.texts, ¬Placeholder.Marked text := by decide +kernel
  have bound : numbered.toPostgres = .ok postgres := by decide +kernel
  obtain ⟨scanned, _, same⟩ :=
    toPostgres_numbers_in_order Calendar.readers (by decide) unmarked compiled
  have again : moved.toPostgres = .ok postgres :=
    (same 0 moved (by decide) recompiled postgres).mpr bound
  exact ⟨compiled, scanned, bound, recompiled, again⟩

/-- What Postgres gets is the statement with `$i` for the placeholder that was allocated as the
`i`-th, exactly if no mark of the caller has the index of a placeholder. Then every text of the
caller stands in it word for word. -/
theorem toPostgres_keeps_texts {postgres : PostgresStatement}
    (word : statement.offset < Text.wordSize) (compiled : statement.compile = .ok query)
    (bound : query.toPostgres readers = .ok postgres) :
    ∃ columns resolution, statement.selectList = .ok columns ∧
      resolveJoins statement.strictJoins statement.tables statement.joins = .ok resolution ∧
      query.sql = statement.rendered columns resolution Placeholder.write statement.offset ∧
      (postgres.sql = statement.rendered columns resolution dollar 1 ↔
        ∀ mark ∈ statement.ownMarks columns resolution,
          ¬(statement.offset ≤ mark ∧ mark < query.next)) ∧
      ((∀ mark ∈ statement.ownMarks columns resolution,
          ¬(statement.offset ≤ mark ∧ mark < query.next)) →
        ∀ piece ∈ statement.pieces, Within piece postgres.sql) := by
  obtain ⟨columns, resolution, written⟩ := exists_written compiled
  have exactly := written.renumber_eq_rendered_iff word
  rw [← Query.sql_of_toPostgres bound] at exactly
  refine ⟨columns, resolution, written.selected, written.resolved, written.text, exactly, ?_⟩
  intro apart piece member
  rw [exactly.mpr apart]
  exact written.within_rendered member

namespace LikePattern

/-- The pattern looks for a zero, and zero is the first index that a statement allocates. -/
def pattern : Statement where
  selection := some (.columns [("a", [.name "id"])])
  tables := [.ofText "a"]
  filter := [.leaf (.eq "a.x" (.ofNat 1)), .raw "a.n LIKE '%0%'" .and]

def chain : Chain := ⟨[.table "a"], [("a", 0)], []⟩

def taken : Query where
  sql := "SELECT a.id FROM a WHERE a.x = %0 AND a.n LIKE '%0%'"
  parameters := [⟨0, .ofNat 1, .string⟩]
  next := 1

/-- Numbered from one, where the pattern is no placeholder. -/
def shifted : Query where
  sql := "SELECT a.id FROM a WHERE a.x = %1 AND a.n LIKE '%0%'"
  parameters := [⟨1, .ofNat 1, .string⟩]
  next := 2

end LikePattern

open LikePattern in
theorem toPostgres_keeps_texts_likePattern :
    { pattern with offset := 1 }.compile = .ok shifted ∧
      ∃ postgres, shifted.toPostgres = .ok postgres ∧
        postgres.sql = pattern.rendered "a.id" ⟨chain, []⟩ dollar 1 ∧
        Within "a.n LIKE '%0%'" postgres.sql := by
  have compiled : { pattern with offset := 1 }.compile = .ok shifted := by decide +kernel
  have bound : shifted.toPostgres =
      .ok ⟨"SELECT a.id FROM a WHERE a.x = $1 AND a.n LIKE '%0%'", [.text "1"]⟩ := by
    decide +kernel
  have selected : pattern.selectList = .ok "a.id" := by decide +kernel
  have resolved : resolveJoins false pattern.tables pattern.joins = .ok ⟨chain, []⟩ := by
    decide +kernel
  have marks : ∀ mark ∈ pattern.ownMarks "a.id" ⟨chain, []⟩,
      ¬(1 ≤ mark ∧ mark < shifted.next) := by decide +kernel
  obtain ⟨columns, resolution, list, joins, _, exactly, within⟩ :=
    toPostgres_keeps_texts (by decide) compiled bound
  obtain rfl := Except.ok.inj (list.symm.trans selected)
  obtain rfl := Except.ok.inj (joins.symm.trans resolved)
  refine ⟨compiled, _, bound, exactly.mpr marks, within marks _ ?_⟩
  decide +kernel

open LikePattern in
theorem like_pattern_rewritten :
    pattern.compile = .ok taken ∧ pattern.selectList = .ok "a.id" ∧
      resolveJoins false pattern.tables pattern.joins = .ok ⟨chain, []⟩ ∧
      ∃ postgres, taken.toPostgres = .ok postgres ∧
        postgres.sql = "SELECT a.id FROM a WHERE a.x = $1 AND a.n LIKE '$1%'" ∧
        pattern.rendered "a.id" ⟨chain, []⟩ dollar 1 =
          "SELECT a.id FROM a WHERE a.x = $1 AND a.n LIKE '%0%'" ∧
        "a.n LIKE '%0%'" ∈ pattern.pieces ∧ ¬Within "a.n LIKE '%0%'" postgres.sql := by
  have bound : taken.toPostgres =
      .ok ⟨"SELECT a.id FROM a WHERE a.x = $1 AND a.n LIKE '$1%'", [.text "1"]⟩ := by
    decide +kernel
  refine ⟨by decide +kernel, by decide +kernel, by decide +kernel, _, bound, rfl,
    by decide +kernel, by decide +kernel, ?_⟩
  rintro ⟨before, after, split⟩
  have zero : ['%', '0'] <:+: "SELECT a.id FROM a WHERE a.x = $1 AND a.n LIKE '$1%'".toList := by
    refine ⟨before.toList ++ "a.n LIKE '".toList, "%'".toList ++ after.toList, ?_⟩
    simpa using (congrArg String.toList split).symm
  revert zero
  decide +kernel

end Statement

end SelectCompiler
