import SelectCompiler.Proofs.Statement.Source
import SelectCompiler.Proofs.Statement.Texts
import SelectCompiler.Proofs.Where.Trimmed

/-!
A statement as its clauses, each a keyword with a body behind it. The body of the filter is never
blank. The others can be, for nobody looks at their texts: a blank expression alone in the select
list, tables without names, a blank entry alone in the grouping or in the order.
-/

namespace SelectCompiler

open Text (trim Within)
open Where (Clause)

namespace Statement

/-- The statement has been put together by the operations that there are. All tables are read from
texts, those of a join as well. -/
inductive Built : Statement → Prop where
  | ofSettings (settings : Settings) : Built (.ofSettings settings)
  | select {statement : Statement} (built : Built statement) (table : String)
      (columns : List Column) : Built (statement.select table columns)
  | selectRaw {statement : Statement} (built : Built statement) (list : String) :
      Built (statement.selectRaw list)
  | addTable {statement : Statement} (built : Built statement) (table : String) :
      Built (statement.addTable table)
  | addTables {statement : Statement} (built : Built statement) (tables : List String) :
      Built (statement.addTables tables)
  | addJoin {statement : Statement} (built : Built statement) (join : Join)
      (read : ∀ table ∈ join.tables, table.IsRead) : Built (statement.addJoin (.descriptor join))
  | addRawJoin {statement : Statement} (built : Built statement) (sql : String) :
      Built (statement.addJoin (.raw sql))
  | setFilter {statement : Statement} (built : Built statement) (filter : PredicateTree) :
      Built (statement.setFilter filter)
  | addPredicate {statement : Statement} (built : Built statement) (node : Predicate) :
      Built (statement.addPredicate node)
  | addEquality {statement : Statement} (built : Built statement) (field : String) (value : Json) :
      Built (statement.addEquality field value)
  | mergeFilter {statement : Statement} (built : Built statement) (addition : PredicateTree)
      (wrap : Option Connective) : Built (statement.mergeFilter addition wrap)
  | addGroupBy {statement : Statement} (built : Built statement) (fields : List String) :
      Built (statement.addGroupBy fields)
  | addOrderBy {statement : Statement} (built : Built statement) (field direction : String) :
      Built (statement.addOrderBy field direction)
  | setOffset {statement : Statement} (built : Built statement) (offset : Nat) :
      Built { statement with offset := offset }
  | setStrictJoins {statement : Statement} (built : Built statement) (strict : Bool) :
      Built { statement with strictJoins := strict }
  | setAllowRawJoins {statement : Statement} (built : Built statement) (allow : Bool) :
      Built { statement with allowRawJoins := allow }

/-- All tables of a statement that was put together were read from texts. -/
theorem Built.isRead {statement : Statement} (built : statement.Built) :
    ∀ table ∈ statement.tables ++
      (statement.joins.filterMap JoinEntry.descriptor?).flatMap Join.tables, table.IsRead := by
  rw [List.forall_mem_append]
  induction built with
  | ofSettings settings => exact ⟨nofun, nofun⟩
  | addTable _ table ih =>
    exact ⟨List.forall_mem_append.mpr ⟨ih.1, List.forall_mem_singleton.mpr ⟨table, rfl⟩⟩, ih.2⟩
  | addTables _ tables ih =>
    exact ⟨List.forall_mem_append.mpr ⟨ih.1, TableRef.isRead_map_ofText tables⟩, ih.2⟩
  | addJoin _ join read ih =>
    refine ⟨ih.1, ?_⟩
    rw [Statement.addJoin, List.filterMap_append, List.flatMap_append, List.forall_mem_append]
    exact ⟨ih.2, by simpa [JoinEntry.descriptor?] using read⟩
  | addRawJoin _ sql ih =>
    refine ⟨ih.1, ?_⟩
    rw [Statement.addJoin, List.filterMap_append, List.flatMap_append, List.forall_mem_append]
    exact ⟨ih.2, nofun⟩
  | select _ _ _ ih | selectRaw _ _ ih | setFilter _ _ ih | addPredicate _ _ ih
  | addEquality _ _ _ ih | mergeFilter _ _ _ ih | addGroupBy _ _ ih | addOrderBy _ _ _ ih
  | setOffset _ _ ih | setStrictJoins _ _ ih | setAllowRawJoins _ _ ih => exact ih

/-- The clauses that a statement can have. -/
inductive Part where
  | select
  | source
  | filter
  | grouping
  | order
  deriving DecidableEq

namespace Part

def keyword : Part → String
  | select => "SELECT"
  | source => "FROM"
  | filter => "WHERE"
  | grouping => "GROUP BY"
  | order => "ORDER BY"

/-- A clause: its keyword with the body behind it. -/
def write (part : Part) (body : String) : String :=
  part.keyword ++ " " ++ body

/-- A clause that is there only if it has entries. -/
def listed (part : Part) (entries : List String) : List (Part × String) :=
  if entries.isEmpty then [] else [(part, ", ".intercalate entries)]

end Part

variable {statement : Statement} {query : Query}

/-- The clauses of a statement with their bodies: the given ones, the grouping and the order. -/
def clauses (statement : Statement) (columns source : String) (filter? : Option String) :
    List (Part × String) :=
  [(.select, columns), (.source, source)] ++ filter?.toList.map (Part.filter, ·)
    ++ Part.grouping.listed statement.groupBy ++ Part.order.listed statement.orderBy

/-- Clauses behind others, each with a space before it. -/
def behind (clauses : List (Part × String)) : String :=
  String.join (clauses.map fun clause => " " ++ clause.1.write clause.2)

theorem behind_append (first second : List (Part × String)) :
    behind (first ++ second) = behind first ++ behind second := by
  rw [behind, List.map_append, String.join_append, behind, behind]

theorem behind_listed (part : Part) (entries : List String) :
    behind (part.listed entries) = listClause part.keyword entries := by
  rw [Part.listed, listClause]
  split
  · rfl
  · simp only [behind, List.map_cons, List.map_nil, String.join_cons, String.join_nil,
      String.append_empty, Part.write, String.append_assoc]

theorem behind_singleton (part : Part) (body : String) :
    behind [(part, body)] = " " ++ part.keyword ++ " " ++ body := by
  simp only [behind, List.map_cons, List.map_nil, String.join_cons, String.join_nil,
    String.append_empty, Part.write, String.append_assoc]

/-- The text of a statement is that of its clauses, with one space between neighbours. -/
theorem sql_eq_clauses (columns source : String) (clause? : Option Clause) :
    (statement.assembled columns source clause?).sql =
      " ".intercalate ((statement.clauses columns source (clause?.map Clause.sql)).map
        fun clause => clause.1.write clause.2) := by
  have filter : behind ((clause?.map Clause.sql).toList.map (Part.filter, ·)) =
      clause?.elim "" fun clause => " WHERE " ++ clause.sql := by
    cases clause? with
    | none => rfl
    | some clause => exact behind_singleton .filter clause.sql
  have grouping : behind (Part.grouping.listed statement.groupBy) =
      listClause "GROUP BY" statement.groupBy := behind_listed .grouping _
  have order : behind (Part.order.listed statement.orderBy) =
      listClause "ORDER BY" statement.orderBy := behind_listed .order _
  have source : behind [(.source, source)] = " FROM " ++ source := behind_singleton .source source
  have whole (others : List (Part × String)) :
      " ".intercalate (((.select, columns) :: others).map fun clause =>
        clause.1.write clause.2) = "SELECT " ++ columns ++ behind others := by
    rw [List.map_cons, Text.intercalate_cons, List.map_map]
    rfl
  rw [sql_assembled, ending, clauses, List.cons_append, List.cons_append, List.cons_append, whole,
    behind_append, behind_append, behind_append, source, filter, grouping, order]
  simp only [String.append_assoc]

/-- Entries with commas between them are blank if there is one alone and it is. -/
theorem trim_intercalate_eq_empty_iff {entries : List String} (filled : entries ≠ []) :
    trim (", ".intercalate entries) = "" ↔ ∃ entry, entries = [entry] ∧ trim entry = "" := by
  have comma : trim ", " ≠ "" := by decide +kernel
  match entries with
  | [] => exact absurd rfl filled
  | [entry] => simp
  | first :: second :: rest =>
    refine iff_of_false ?_ (by simp)
    rw [String.intercalate_cons_cons, Text.trim_append_eq_empty_iff, Text.trim_append_eq_empty_iff]
    exact fun blank => comma blank.1.2

theorem trim_listed_iff {part other : Part} {entries : List String} {body : String}
    (member : (part, body) ∈ other.listed entries) :
    part = other ∧ (trim body = "" ↔ ∃ entry, entries = [entry] ∧ trim entry = "") := by
  unfold Part.listed at member
  split at member
  · contradiction
  · rename_i filled
    obtain ⟨rfl, rfl⟩ := Prod.mk.inj (List.mem_singleton.mp member)
    exact ⟨rfl, trim_intercalate_eq_empty_iff (mt List.isEmpty_iff.mpr filled)⟩

/-- A column is blank only as an expression without a name for its result. -/
theorem trim_column_eq_empty_iff {table : String} {column : Column} :
    trim (column.sql table) = "" ↔ ∃ text, column = .expression text none ∧ trim text = "" := by
  have point : trim "." ≠ "" := by decide +kernel
  have as : trim " AS " ≠ "" := by decide +kernel
  match column with
  | .name name =>
    refine iff_of_false ?_ (by simp)
    rw [Column.sql, Text.trim_append_eq_empty_iff, Text.trim_append_eq_empty_iff]
    exact fun blank => point blank.1.2
  | .expression text none => simp [Column.sql]
  | .expression text (some outputName) =>
    refine iff_of_false ?_ (by simp)
    rw [Column.sql, Text.trim_append_eq_empty_iff, Text.trim_append_eq_empty_iff]
    exact fun blank => as blank.1.2

/-- One expression alone is selected, and it is blank. -/
def SelectionBlank (statement : Statement) : Prop :=
  ∃ entries text, statement.selection = some (.columns entries) ∧
    entries.flatMap (·.2) = [.expression text none] ∧ trim text = ""

/-- The text of a column that is selected alone is that of the column under some table. -/
theorem exists_table_of_single {entries : List (String × List Column)} {text : String}
    {column : Column}
    (only : (entries.flatMap fun entry => entry.2.map (Column.sql entry.1)) = [text])
    (single : entries.flatMap (·.2) = [column]) : ∃ table, text = column.sql table := by
  have listed : text ∈ entries.flatMap fun entry => entry.2.map (Column.sql entry.1) := by
    rw [only]
    exact List.mem_singleton_self text
  obtain ⟨entry, member, mapped⟩ := List.mem_flatMap.mp listed
  obtain ⟨found, own, rfl⟩ := List.mem_map.mp mapped
  have same : found = column := by
    rw [← List.mem_singleton, ← single]
    exact List.mem_flatMap.mpr ⟨entry, member, own⟩
  exact ⟨entry.1, by rw [same]⟩

theorem trim_selectList_eq_empty_iff {columns : String}
    (selected : statement.selectList = .ok columns) :
    trim columns = "" ↔ statement.SelectionBlank := by
  obtain ⟨list, given, visible, rfl⟩ | ⟨entries, given, filled, rfl⟩ := selectList_filled selected
  · refine iff_of_false ?_ ?_
    · rwa [Text.trim_trim]
    · rintro ⟨entries, _, other, _⟩
      rw [given] at other
      cases other
  · have count : (entries.flatMap fun entry => entry.2.map (Column.sql entry.1)).length =
        (entries.flatMap (·.2)).length := by simp [List.length_flatMap]
    rw [trim_intercalate_eq_empty_iff filled]
    constructor
    · rintro ⟨text, only, blank⟩
      rw [only, List.length_singleton] at count
      obtain ⟨column, single⟩ := List.length_eq_one_iff.mp count.symm
      obtain ⟨table, rfl⟩ := exists_table_of_single only single
      obtain ⟨text, rfl, blank⟩ := trim_column_eq_empty_iff.mp blank
      exact ⟨entries, text, given, single, blank⟩
    · rintro ⟨others, text, other, single, blank⟩
      obtain rfl : entries = others := by
        rw [given] at other
        exact Selection.columns.inj (Option.some.inj other)
      rw [single, List.length_singleton] at count
      obtain ⟨sql, only⟩ := List.length_eq_one_iff.mp count
      obtain ⟨table, same⟩ := exists_table_of_single only single
      exact ⟨sql, only, same ▸ blank⟩

/-- What makes the body of a clause blank. -/
def Dangles (statement : Statement) : Part → Prop
  | .select => statement.SelectionBlank
  | .source => SourceBlank statement.tables statement.joins
  | .filter => False
  | .grouping => ∃ entry, statement.groupBy = [entry] ∧ trim entry = ""
  | .order => ∃ entry, statement.orderBy = [entry] ∧ trim entry = ""

/-- The text of a compiled statement is that of its clauses, and there is something behind every
keyword but those whose body was given blank: a single expression, tables without a name, a single
entry of a list. There is always a filter behind WHERE. -/
theorem compile_dangles_iff (built : statement.Built) (compiled : statement.compile = .ok query) :
    ∃ columns resolution clause?, statement.selectList = .ok columns ∧
      resolveJoins statement.strictJoins statement.tables statement.joins = .ok resolution ∧
      Where.compile (filterAfter resolution.residual statement.filter) statement.offset =
        .ok clause? ∧
      let clauses := statement.clauses columns resolution.fromClause (clause?.map Clause.sql)
      query.sql = " ".intercalate (clauses.map fun clause => clause.1.write clause.2) ∧
        ∀ part body, (part, body) ∈ clauses → (trim body = "" ↔ statement.Dangles part) := by
  obtain ⟨columns, resolution, clause?, selected, _, _, resolved, _, filtered, rfl⟩ :=
    compile_eq_ok_iff.mp compiled
  refine ⟨columns, resolution, clause?, selected, resolved, filtered, sql_eq_clauses _ _ _, ?_⟩
  intro part body member
  simp only [clauses, List.mem_append, List.mem_cons, List.not_mem_nil, or_false] at member
  rcases member with (((first | second) | filter) | grouping) | order
  · obtain ⟨rfl, rfl⟩ := Prod.mk.inj first
    exact trim_selectList_eq_empty_iff selected
  · obtain ⟨rfl, rfl⟩ := Prod.mk.inj second
    exact trim_fromClause_eq_empty_iff built.isRead resolved
  · obtain ⟨sql, given, same⟩ := List.mem_map.mp filter
    obtain ⟨rfl, rfl⟩ := Prod.mk.inj same
    obtain ⟨clause, rfl, rfl⟩ := Option.map_eq_some_iff.mp (Option.mem_toList.mp given)
    obtain ⟨filled, text⟩ := Where.compile_eq_some_iff.mp filtered
    exact iff_of_false (Where.compileSiblings_visible filled text) id
  · obtain ⟨rfl, blank⟩ := trim_listed_iff grouping
    exact blank
  · obtain ⟨rfl, blank⟩ := trim_listed_iff order
    exact blank

/-- A blank entry alone in the grouping, and nothing else that is blank. -/
theorem compile_dangles_iff_blankGrouping :
    let statement := (((ofSettings {}).selectRaw " * ").addTable "a b").addGroupBy [" "]
    let text := "SELECT * FROM a b GROUP BY  "
    statement.Built ∧ statement.compile = .ok ⟨text, [], 0⟩ ∧
      ∃ clauses : List (Part × String),
        text = " ".intercalate (clauses.map fun clause => clause.1.write clause.2) ∧
          ∀ part body, (part, body) ∈ clauses → (trim body = "" ↔ statement.Dangles part) := by
  intro statement text
  have built : statement.Built :=
    (((Built.ofSettings {}).selectRaw " * ").addTable "a b").addGroupBy [" "]
  have compiled : statement.compile = .ok ⟨text, [], 0⟩ := by decide +kernel
  obtain ⟨columns, resolution, clause?, _, _, _, same, bodies⟩ :=
    compile_dangles_iff built compiled
  exact ⟨built, compiled, _, same, bodies⟩

/-- A select list, a table and entries of lists that are all blank. -/
theorem clauses_dangle_blankTexts :
    let statement := ((((ofSettings {}).select "" [.expression " " none]).addTable " ").addGroupBy
      [" "]).addOrderBy " " ""
    let clauses := [(Part.select, " "), (.source, ""), (.grouping, " "), (.order, "")]
    statement.Built ∧
      statement.compile =
        .ok ⟨" ".intercalate (clauses.map fun clause => clause.1.write clause.2), [], 0⟩ ∧
      ∀ clause ∈ clauses, trim clause.2 = "" := by
  intro statement clauses
  refine ⟨?_, by decide +kernel, by decide +kernel⟩
  exact ((((Built.ofSettings {}).select "" [.expression " " none]).addTable " ").addGroupBy
    [" "]).addOrderBy " " ""

end Statement

end SelectCompiler
