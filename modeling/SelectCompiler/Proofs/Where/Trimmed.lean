import SelectCompiler.Proofs.Where.Scan
import SelectCompiler.Proofs.Where.Success

/-!
What the text of a filter begins and ends with. The compiler trims every text of the caller and puts
single blanks between what is left, so there are no blanks around the text of a filter, and there is
always something in it.
-/

namespace SelectCompiler.Where

variable {index : Nat} {clause : Clause}

/-- The text of a predicate is never blank. -/
theorem compileNode_visible {node : Predicate} (compiled : compileNode index node = .ok clause) :
    Text.trim clause.sql ≠ "" := by
  cases node with
  | leaf condition =>
    obtain ⟨visible, ⟨value, _, _, _, rfl⟩ | ⟨_, _, rfl⟩⟩ := compileCondition_eq_ok_iff.mp compiled
    all_goals
      rw [← Text.trim_trim] at visible
      simp only [boundClause, plainClause, Clause.text, String.append_assoc]
      exact Text.trim_append_ne_empty visible _
  | raw sql connective =>
    obtain ⟨visible, rfl⟩ := compileNode_raw_eq_ok_iff.mp compiled
    rwa [Clause.text, Text.trim_trim]
  | group connective children =>
    obtain ⟨_, inner, _, _, rfl⟩ := compileNode_group_eq_ok_iff.mp compiled
    rw [Clause.parenthesized, String.append_assoc]
    have parenthesis : Text.trim "(" ≠ "" := by decide +kernel
    exact Text.trim_append_ne_empty parenthesis _

theorem compileSiblings_visible {nodes : List Predicate} (filled : nodes ≠ [])
    (compiled : compileSiblings index nodes = .ok clause) : Text.trim clause.sql ≠ "" := by
  obtain ⟨node, rest, rfl⟩ := List.exists_cons_of_ne_nil filled
  obtain ⟨first, following, head, _, rfl⟩ := compileSiblings_cons_eq_ok_iff.mp compiled
  exact Text.trim_append_ne_empty (compileNode_visible head) _

theorem trim_comparison (comparator : String) :
    Text.trim (comparison comparator) = comparison comparator := by
  unfold comparison
  split
  · exact Text.trim_of_visible (List.forall_mem_singleton.mpr (by decide))
  · exact Text.trim_trim comparator

theorem comparison_ne_empty (comparator : String) : comparison comparator ≠ "" := by
  unfold comparison
  split
  · decide
  · rename_i filled
    exact mt String.isEmpty_iff.mpr filled

theorem trim_write (index : Nat) :
    Text.trim (Placeholder.write index) = Placeholder.write index := by
  refine Text.trim_of_visible fun c member => ?_
  rw [Placeholder.write, String.toList_append, List.mem_append] at member
  obtain percent | numeral := member
  · obtain rfl := List.mem_singleton.mp percent
    exact Text.not_isBlank_percent
  · exact Text.isBlank_of_isDigit (Text.isDigit_of_mem_repr c numeral)

/-- The text of a test has no blanks around it, and it begins as its field does. -/
theorem compileCondition_trimmed {condition : Condition}
    (compiled : compileCondition index condition = .ok clause) :
    Text.trim clause.sql = clause.sql ∧
      clause.sql.toList.head? = (Text.trim condition.field).toList.head? := by
  obtain ⟨filled, ways⟩ := compileCondition_eq_ok_iff.mp compiled
  have field := Text.trim_trim condition.field
  have begins : (Text.trim condition.field).toList ≠ [] := mt String.toList_eq_nil_iff.mp filled
  obtain ⟨given, _, _, _, rfl⟩ | ⟨_, alone, rfl⟩ := ways
  · have compared := Text.trim_append_blank field filled (trim_comparison condition.comparator)
      (comparison_ne_empty condition.comparator)
    refine ⟨Text.trim_append_blank compared ?_ (trim_write index) ?_, ?_⟩
    · simp [filled]
    · simp [Placeholder.write]
    · simp only [boundClause, String.toList_append, List.append_assoc]
      exact List.head?_append_of_ne_nil _ begins
  · refine ⟨Text.trim_append_blank field filled (Text.trim_trim _) alone, ?_⟩
    simp only [plainClause, Clause.text, String.toList_append, List.append_assoc]
    exact List.head?_append_of_ne_nil _ begins

/-- There are no blanks around the text of a predicate. -/
theorem compileNode_trimmed {node : Predicate} (compiled : compileNode index node = .ok clause) :
    Text.trim clause.sql = clause.sql := by
  cases node with
  | leaf condition => exact (compileCondition_trimmed compiled).1
  | raw sql connective =>
    obtain ⟨_, rfl⟩ := compileNode_raw_eq_ok_iff.mp compiled
    exact Text.trim_trim sql
  | group connective children =>
    obtain ⟨_, inner, _, _, rfl⟩ := compileNode_group_eq_ok_iff.mp compiled
    exact Text.trim_parenthesized inner.sql

/-- What follows a text without blanks around it leaves it without them. -/
theorem compileFollowing_trimmed {nodes : List Predicate} {lead : String}
    (compiled : compileFollowing index nodes = .ok clause) (kept : Text.trim lead = lead)
    (filled : lead ≠ "") : Text.trim (lead ++ clause.sql) = lead ++ clause.sql := by
  induction nodes generalizing index clause lead with
  | nil =>
    rw [compileFollowing_nil_eq_ok_iff.mp compiled, Clause.text, String.append_empty]
    exact kept
  | cons node rest ih =>
    obtain ⟨first, following, head, tail, rfl⟩ := compileFollowing_cons_eq_ok_iff.mp compiled
    have connective : Text.trim node.connective.sql = node.connective.sql ∧
        node.connective.sql ≠ "" := by
      cases node.connective <;> decide +kernel
    have own := compileNode_trimmed head
    have visible := compileNode_visible head
    rw [own] at visible
    have joined := Text.trim_append_blank kept filled connective.1 connective.2
    have longer := Text.trim_append_blank joined (by simp [filled]) own visible
    have whole := ih tail longer (by simp [filled])
    simpa only [Clause.append, Clause.behind, String.append_assoc] using whole

theorem compileSiblings_trimmed {nodes : List Predicate}
    (compiled : compileSiblings index nodes = .ok clause) : Text.trim clause.sql = clause.sql := by
  cases nodes with
  | nil =>
    rw [compileSiblings_nil_eq_ok_iff.mp compiled]
    rfl
  | cons node rest =>
    obtain ⟨first, following, head, tail, rfl⟩ := compileSiblings_cons_eq_ok_iff.mp compiled
    have own := compileNode_trimmed head
    have visible := compileNode_visible head
    rw [own] at visible
    exact compileFollowing_trimmed tail own visible

end SelectCompiler.Where
