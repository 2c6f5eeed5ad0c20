import SelectCompiler.Proofs.Statement.JoinConditions
import SelectCompiler.Proofs.Statement.Rendering

/-!
The caller's texts in a statement. All marks in the text of the statement that are not placeholders
come from them, and each of them is written as it was given, apart from the blanks around it.
-/

namespace SelectCompiler

open Placeholder (indices)
open Text (Within)

def Column.texts (table : String) : Column → List String
  | .name column => [table, column]
  | .expression text outputName => text :: outputName.toList

def Selection.texts : Selection → List String
  | .columns entries => entries.flatMap fun entry => entry.2.flatMap (Column.texts entry.1)
  | .raw list => [list]

def JoinEntry.texts : JoinEntry → List String
  | .descriptor join => join.texts
  | .raw sql => [sql]

/-- The texts that a statement is put together from. -/
def Statement.texts (statement : Statement) : List String :=
  statement.selection.toList.flatMap Selection.texts ++ statement.tables.map TableRef.sql
    ++ statement.joins.flatMap JoinEntry.texts ++ PredicateTree.texts statement.filter
    ++ statement.groupBy ++ statement.orderBy

section Selection

theorem Column.indices_sql (table : String) (column : Column) :
    indices (column.sql table) = (column.texts table).flatMap indices := by
  match column with
  | .name column =>
    rw [Column.sql, Placeholder.indices_glue (by decide), Column.texts]
    simp
  | .expression text none => simp [Column.sql, Column.texts]
  | .expression text (some outputName) =>
    rw [Column.sql, Placeholder.indices_glue (by decide), Column.texts]
    simp

/-- A select list is a raw list that is not blank, or the list of the columns, of which there is at
least one. -/
theorem Statement.selectList_filled {statement : Statement} {columns : String}
    (selected : statement.selectList = .ok columns) :
    (∃ list, statement.selection = some (.raw list) ∧ Text.trim list ≠ "" ∧
      columns = Text.trim list) ∨
      ∃ entries, statement.selection = some (.columns entries) ∧
        (entries.flatMap fun entry => entry.2.map (Column.sql entry.1)) ≠ [] ∧
        columns = ", ".intercalate
          (entries.flatMap fun entry => entry.2.map (Column.sql entry.1)) := by
  unfold selectList at selected
  split at selected
  · contradiction
  · rename_i list given
    refine .inl ⟨list, given, ?_⟩
    dsimp only at selected
    split at selected
    · contradiction
    · rename_i filled
      exact ⟨mt String.isEmpty_iff.mpr filled, ok_eq_ok_iff.mp selected⟩
  · rename_i entries given
    refine .inr ⟨entries, given, ?_⟩
    split at selected
    · contradiction
    · dsimp only at selected
      split at selected
      · contradiction
      · rename_i filled
        exact ⟨mt List.isEmpty_iff.mpr filled, ok_eq_ok_iff.mp selected⟩

theorem Statement.selectList_cases {statement : Statement} {columns : String}
    (selected : statement.selectList = .ok columns) :
    (∃ list, statement.selection = some (.raw list) ∧ columns = Text.trim list) ∨
      ∃ entries, statement.selection = some (.columns entries) ∧
        columns = ", ".intercalate
          (entries.flatMap fun entry => entry.2.map (Column.sql entry.1)) := by
  obtain ⟨list, given, _, same⟩ | ⟨entries, given, _, same⟩ := selectList_filled selected
  · exact .inl ⟨list, given, same⟩
  · exact .inr ⟨entries, given, same⟩

theorem Statement.indices_selectList {statement : Statement} {columns : String}
    (selected : statement.selectList = .ok columns) :
    indices columns = (statement.selection.toList.flatMap Selection.texts).flatMap indices := by
  obtain ⟨list, given, rfl⟩ | ⟨entries, given, rfl⟩ := selectList_cases selected
  · rw [given, Placeholder.indices_trim]
    simp [Selection.texts]
  · rw [given, Placeholder.indices_intercalate (by decide), List.flatMap_assoc, Option.toList_some,
      List.flatMap_singleton, Selection.texts, List.flatMap_assoc]
    refine List.flatMap_congr fun entry _ => ?_
    rw [List.flatMap_map, List.flatMap_assoc]
    exact List.flatMap_congr fun column _ => column.indices_sql entry.1

end Selection

namespace Statement

variable {statement : Statement} {query : Query} {columns : String} {resolution : Resolution}

/-- Without marks in the caller's texts the chain and the left-over conditions hold none. -/
theorem Written.made (written : statement.Written query columns resolution)
    (silent : ∀ text ∈ statement.texts, indices text = []) :
    resolution.chain.Made fun text => indices text = [] := by
  simp only [texts, List.forall_mem_append] at silent
  obtain ⟨⟨⟨⟨⟨_, tables⟩, joins⟩, _⟩, _⟩, _⟩ := silent
  refine Resolution.made_of_resolved written.resolved ?_ ?_ ?_
  · exact fun table member => tables _ (List.mem_map.mpr ⟨table, member, rfl⟩)
  · intro join member
    obtain ⟨entry, given, found⟩ := List.mem_filterMap.mp member
    have own : ∀ text ∈ join.texts, indices text = [] := by
      cases entry with
      | descriptor other =>
        obtain rfl := Option.some.inj found
        exact fun text inside => joins text (List.mem_flatMap.mpr ⟨_, given, inside⟩)
      | raw sql => contradiction
    refine ⟨?_, own⟩
    rw [Join.indices_sql, List.flatMap_eq_nil_iff]
    exact own
  · intro sql member
    obtain ⟨entry, given, found⟩ := List.mem_filterMap.mp member
    rw [Placeholder.indices_trim]
    cases entry with
    | descriptor join => contradiction
    | raw other =>
      obtain rfl := Option.some.inj found
      exact joins _ (List.mem_flatMap.mpr ⟨_, given, by simp [JoinEntry.texts]⟩)

/-- If the caller's texts hold no marks, all marks in the text of the statement are placeholders. -/
theorem Written.ownMarks_eq_nil (written : statement.Written query columns resolution)
    (silent : ∀ text ∈ statement.texts, indices text = []) :
    statement.ownMarks columns resolution = [] := by
  have made := written.made silent
  simp only [texts, List.forall_mem_append] at silent
  obtain ⟨⟨⟨⟨⟨selection, _⟩, _⟩, filter⟩, groups⟩, order⟩ := silent
  have chain : indices resolution.fromClause = [] := by
    rw [Resolution.fromClause, Chain.indices_sql, List.flatMap_eq_nil_iff]
    exact fun link member => List.flatMap_eq_nil_iff.mpr (made.links link member)
  have conditions : ∀ text ∈ PredicateTree.texts
      (filterAfter resolution.residual statement.filter), indices text = [] := by
    rw [texts_filterAfter]
    exact List.forall_mem_append.mpr ⟨made.residual, filter⟩
  rw [ownMarks, indices_selectList written.selected, List.flatMap_eq_nil_iff.mpr selection, chain,
    List.flatMap_eq_nil_iff.mpr conditions, indices_ending, List.flatMap_eq_nil_iff.mpr groups,
    List.flatMap_eq_nil_iff.mpr order]
  rfl

end Statement

/-- The texts of a selection as they are written. -/
def Selection.pieces : Selection → List String
  | .columns entries => texts (.columns entries)
  | .raw list => [Text.trim list]

/-- The texts that the caller wrote for a join entry, besides tables and keywords. -/
def JoinEntry.pieces : JoinEntry → List String
  | .descriptor join => [Text.trim join.condition]
  | .raw sql => [Text.trim sql]

/-- The select list, the conditions and texts of joins, the texts of the filter, and the lists
behind it. -/
def Statement.pieces (statement : Statement) : List String :=
  statement.selection.toList.flatMap Selection.pieces
    ++ statement.joins.flatMap JoinEntry.pieces
    ++ (PredicateTree.texts statement.filter).map Text.trim
    ++ statement.groupBy ++ statement.orderBy

theorem Text.Within.trim (text : String) : Within (Text.trim text) text := by
  obtain ⟨lead, trail, split, _, _⟩ := Text.exists_trimmed text.toList
  refine ⟨String.ofList lead, String.ofList trail, String.toList_injective ?_⟩
  rw [String.toList_append, String.toList_append, Text.toList_trim, String.toList_ofList,
    String.toList_ofList, List.append_assoc]
  exact split

section Filter

variable {mark : Nat → String}

mutual
theorem Predicate.within_rendered {text : String} {index : Nat} : ∀ node : Predicate,
    text ∈ node.texts → Within (Text.trim text) (node.rendered mark index)
  | .leaf condition, member => by
    rw [Predicate.texts, List.mem_pair] at member
    rw [Predicate.rendered, Condition.rendered]
    obtain rfl | rfl := member
    · split
      · simp only [String.append_assoc]
        exact (Within.refl _).before _
      · rw [String.append_assoc]
        exact (Within.refl _).before _
    · split
      · refine ((Within.behind _ ?_).before _).before _
        unfold Where.comparison
        split
        · rename_i blank
          rw [String.isEmpty_iff.mp blank]
          exact ⟨"", "=", rfl⟩
        · exact .refl _
      · exact (Within.refl _).behind _
  | .raw sql _, member => by
    rw [Predicate.texts, List.mem_singleton] at member
    rw [Predicate.rendered, member]
    exact .refl _
  | .group _ children, member => by
    rw [Predicate.texts] at member
    rw [Predicate.rendered]
    exact ((PredicateTree.within_rendered children member).behind _).before _

/-- Every text of a filter is written as it was given, without the blanks around it. -/
theorem PredicateTree.within_rendered {text : String} {index : Nat} : ∀ nodes : List Predicate,
    text ∈ PredicateTree.texts nodes →
      Within (Text.trim text) (PredicateTree.rendered mark index nodes)
  | [], member => nomatch member
  | node :: rest, member => by
    rw [PredicateTree.texts, List.mem_append] at member
    rw [PredicateTree.rendered]
    obtain first | later := member
    · exact (node.within_rendered first).before _
    · exact (PredicateTree.within_renderedBehind rest later).behind _

theorem PredicateTree.within_renderedBehind {text : String} {index : Nat} :
    ∀ nodes : List Predicate, text ∈ PredicateTree.texts nodes →
      Within (Text.trim text) (PredicateTree.renderedBehind mark index nodes)
  | [], member => nomatch member
  | node :: rest, member => by
    rw [PredicateTree.texts, List.mem_append] at member
    rw [PredicateTree.renderedBehind]
    obtain first | later := member
    · exact ((node.within_rendered first).behind _).before _
    · exact (PredicateTree.within_renderedBehind rest later).behind _
end

end Filter

namespace Statement

variable {statement : Statement} {query : Query} {columns piece : String} {resolution : Resolution}
  {mark : Nat → String} {index : Nat}

theorem within_listClause {keyword : String} {entries : List String} (member : piece ∈ entries) :
    Within piece (listClause keyword entries) := by
  rw [listClause, List.isEmpty_eq_false_iff.mpr (List.ne_nil_of_mem member)]
  exact (Within.intercalate member).behind _

theorem within_column {table text : String} {column : Column}
    (member : text ∈ column.texts table) : Within text (column.sql table) := by
  match column with
  | .name name =>
    rw [Column.sql]
    obtain rfl | rfl := List.mem_pair.mp member
    · exact ((Within.refl _).before _).before _
    · exact (Within.refl _).behind _
  | .expression sql none =>
    rw [List.mem_singleton.mp member]
    exact .refl _
  | .expression sql (some outputName) =>
    rw [Column.sql]
    obtain rfl | rfl := List.mem_pair.mp member
    · exact ((Within.refl _).before _).before _
    · exact (Within.refl _).behind _

theorem within_selectList (selected : statement.selectList = .ok columns)
    (member : piece ∈ statement.selection.toList.flatMap Selection.pieces) :
    Within piece columns := by
  obtain ⟨list, given, rfl⟩ | ⟨entries, given, rfl⟩ := selectList_cases selected
  · rw [given, Option.toList_some, List.flatMap_singleton, Selection.pieces,
      List.mem_singleton] at member
    rw [member]
    exact .refl _
  · rw [given, Option.toList_some, List.flatMap_singleton, Selection.pieces, Selection.texts]
      at member
    obtain ⟨entry, listed, inside⟩ := List.mem_flatMap.mp member
    obtain ⟨column, own, text⟩ := List.mem_flatMap.mp inside
    refine (within_column text).trans (Within.intercalate ?_)
    exact List.mem_flatMap.mpr ⟨entry, listed, List.mem_map.mpr ⟨column, own, rfl⟩⟩

/-- What is written for the filter and the conditions left over stands in the statement. -/
theorem within_filterAfter (columns : String) {text : String}
    (member : text ∈ resolution.residual ++ PredicateTree.texts statement.filter) :
    Within (Text.trim text) (statement.rendered columns resolution mark index) := by
  rw [← texts_filterAfter] at member
  have filled : (filterAfter resolution.residual statement.filter).isEmpty = false := by
    rw [List.isEmpty_eq_false_iff]
    intro empty
    rw [empty] at member
    contradiction
  rw [rendered, PredicateTree.renderedWhere, filled]
  exact (((PredicateTree.within_rendered _ member).behind _).behind _).before _

theorem within_fromClause (columns : String) :
    Within resolution.fromClause (statement.rendered columns resolution mark index) := by
  rw [rendered]
  exact (((Within.refl _).behind _).before _).before _

/-- What a join entry says is in a link of the chain, or it is left over for the filter. -/
theorem within_joins
    (resolved : resolveJoins statement.strictJoins statement.tables statement.joins =
      .ok resolution)
    (columns : String) {entry : JoinEntry} (given : entry ∈ statement.joins)
    (member : piece ∈ entry.pieces) :
    Within piece (statement.rendered columns resolution mark index) := by
  cases entry with
  | descriptor join =>
    rw [List.mem_singleton.mp member]
    by_cases blank : join.condition = ""
    · rw [blank, Text.trim_empty]
      exact ⟨"", statement.rendered columns resolution mark index, by simp⟩
    · have listed : join ∈ statement.joins.filterMap JoinEntry.descriptor? :=
        List.mem_filterMap.mpr ⟨_, given, rfl⟩
      have conserves := Resolution.conserves_of_resolved resolved
      obtain linked | left := conserves.within_or_mem listed blank
      · exact ((Within.trim _).trans linked).trans (within_fromClause columns)
      · exact within_filterAfter columns (List.mem_append_left _ left)
  | raw sql =>
    rw [List.mem_singleton.mp member]
    obtain ⟨done, _, _, _, made⟩ := resolveJoins_cases resolved
    have last : Link.verbatim (Text.trim sql) ∈ resolution.chain.links := by
      rw [made]
      refine List.mem_append_right _ (List.mem_map.mpr ⟨_, ?_, rfl⟩)
      exact List.mem_map.mpr ⟨sql, List.mem_filterMap.mpr ⟨_, given, rfl⟩, rfl⟩
    exact (Chain.within_sql last).trans (within_fromClause columns)

/-- Every text of the caller is in the text of the statement, however placeholders are written. -/
theorem Written.within_rendered (written : statement.Written query columns resolution)
    (member : piece ∈ statement.pieces) :
    Within piece (statement.rendered columns resolution mark index) := by
  simp only [pieces, List.mem_append] at member
  obtain (((selection | join) | filter) | group) | order := member
  · refine (within_selectList written.selected selection).trans ?_
    rw [rendered]
    exact (((((Within.refl _).behind _).before _).before _).before _).before _
  · obtain ⟨entry, given, inside⟩ := List.mem_flatMap.mp join
    exact within_joins written.resolved columns given inside
  · obtain ⟨text, given, rfl⟩ := List.mem_map.mp filter
    exact within_filterAfter columns (List.mem_append_right _ given)
  · rw [rendered, ending]
    exact ((within_listClause group).before _).behind _
  · rw [rendered, ending]
    exact ((within_listClause order).behind _).behind _

end Statement

end SelectCompiler
