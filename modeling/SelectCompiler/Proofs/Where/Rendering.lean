import SelectCompiler.Proofs.Where.Numbering

/-!
The text of a filter for any way of writing its placeholders. Compilation writes them as `%n`; only
where they stand and how many there are depends on the filter, so other ways to write them give the
same text around them.
-/

namespace SelectCompiler

/-- The text of a test, with its value written as `mark` if it binds one. -/
def Condition.rendered (mark : String) (condition : Condition) : String :=
  if condition.isBound then
    Text.trim condition.field ++ " " ++ Where.comparison condition.comparator ++ " " ++ mark
  else Text.trim condition.field ++ " " ++ Text.trim condition.comparator

mutual
/-- The text of a predicate whose placeholders are counted from `index` and written by `mark`. -/
def Predicate.rendered (mark : Nat → String) (index : Nat) : Predicate → String
  | .leaf condition => condition.rendered (mark index)
  | .raw sql _ => Text.trim sql
  | .group _ children => "(" ++ PredicateTree.rendered mark index children ++ ")"

def PredicateTree.rendered (mark : Nat → String) (index : Nat) : List Predicate → String
  | [] => ""
  | node :: rest =>
    node.rendered mark index
      ++ PredicateTree.renderedBehind mark (index + node.boundLeaves.length) rest

/-- The text of predicates behind others, each behind its connective. -/
def PredicateTree.renderedBehind (mark : Nat → String) (index : Nat) : List Predicate → String
  | [] => ""
  | node :: rest =>
    " " ++ node.connective.sql ++ " " ++ node.rendered mark index
      ++ PredicateTree.renderedBehind mark (index + node.boundLeaves.length) rest
end

namespace Where

theorem compileCondition_rendered {index : Nat} {condition : Condition} {clause : Clause}
    (compiled : compileCondition index condition = .ok clause) :
    clause.sql = condition.rendered (Placeholder.write index) := by
  obtain ⟨_, ⟨value, given, bindable, _, rfl⟩ | ⟨missing, _, rfl⟩⟩ :=
    compileCondition_eq_ok_iff.mp compiled
  · have isBound : condition.isBound = true := by simp [Condition.isBound, given, bindable]
    rw [Condition.rendered, if_pos isBound]
    rfl
  · have unbound : ¬condition.isBound = true := by
      rcases missing with given | given <;> simp [Condition.isBound, given, Json.isBindable]
    rw [Condition.rendered, if_neg unbound]
    rfl

mutual
theorem compileNode_rendered {index : Nat} {clause : Clause} :
    ∀ node : Predicate, compileNode index node = .ok clause →
      clause.sql = node.rendered Placeholder.write index
  | .leaf _, compiled => by
    rw [Predicate.rendered]
    exact compileCondition_rendered compiled
  | .raw _ _, compiled => by
    obtain ⟨_, rfl⟩ := compileNode_raw_eq_ok_iff.mp compiled
    rw [Predicate.rendered]
    rfl
  | .group _ children, compiled => by
    obtain ⟨_, inner, siblings, _, rfl⟩ := compileNode_group_eq_ok_iff.mp compiled
    rw [Predicate.rendered, ← compileSiblings_rendered children siblings]
    rfl

/-- Compilation writes placeholders with a percent sign. -/
theorem compileSiblings_rendered {index : Nat} {clause : Clause} :
    ∀ nodes : List Predicate, compileSiblings index nodes = .ok clause →
      clause.sql = PredicateTree.rendered Placeholder.write index nodes
  | [], compiled => by
    rw [compileSiblings_nil_eq_ok_iff.mp compiled, PredicateTree.rendered]
    rfl
  | node :: rest, compiled => by
    obtain ⟨first, following, head, tail, rfl⟩ := compileSiblings_cons_eq_ok_iff.mp compiled
    have behind := compileFollowing_rendered rest tail
    rw [(compileNode_numbered node head).next] at behind
    rw [PredicateTree.rendered, ← compileNode_rendered node head, ← behind]
    rfl

theorem compileFollowing_rendered {index : Nat} {clause : Clause} :
    ∀ nodes : List Predicate, compileFollowing index nodes = .ok clause →
      clause.sql = PredicateTree.renderedBehind Placeholder.write index nodes
  | [], compiled => by
    rw [compileFollowing_nil_eq_ok_iff.mp compiled, PredicateTree.renderedBehind]
    rfl
  | node :: rest, compiled => by
    obtain ⟨first, following, head, tail, rfl⟩ := compileFollowing_cons_eq_ok_iff.mp compiled
    have behind := compileFollowing_rendered rest tail
    rw [(compileNode_numbered node head).next] at behind
    rw [PredicateTree.renderedBehind, ← compileNode_rendered node head, ← behind]
    rfl
end

end Where

theorem PredicateTree.leadingDigits_renderedBehind (mark : Nat → String) (index : Nat)
    (nodes : List Predicate) :
    Placeholder.leadingDigits (PredicateTree.renderedBehind mark index nodes).toList = [] := by
  cases nodes with
  | nil =>
    rw [PredicateTree.renderedBehind]
    rfl
  | cons node rest =>
    rw [PredicateTree.renderedBehind]
    simp only [String.toList_append]
    exact Placeholder.leadingDigits_cons (by decide) _

section Plain

variable {mark : Nat → String}

theorem Condition.indices_rendered {mark : String} (plain : '%' ∉ mark.toList)
    (condition : Condition) :
    Placeholder.indices (condition.rendered mark) =
      Placeholder.indices condition.field ++ Placeholder.indices condition.comparator := by
  unfold Condition.rendered
  by_cases isBound : condition.isBound = true
  · rw [if_pos isBound, Placeholder.indices_glue (by decide), Placeholder.indices_glue (by decide),
      Placeholder.indices_trim, Where.indices_comparison,
      Placeholder.indices_eq_nil_of_plain plain, List.append_nil]
  · rw [if_neg isBound, Placeholder.indices_glue (by decide), Placeholder.indices_trim,
      Placeholder.indices_trim]

mutual
theorem Predicate.indices_rendered (plain : ∀ i, '%' ∉ (mark i).toList) (index : Nat) :
    ∀ node : Predicate,
      Placeholder.indices (node.rendered mark index) = node.texts.flatMap Placeholder.indices
  | .leaf condition => by
    rw [Predicate.rendered, condition.indices_rendered (plain index), Predicate.texts]
    simp
  | .raw sql _ => by
    rw [Predicate.rendered, Placeholder.indices_trim, Predicate.texts, List.flatMap_singleton]
  | .group _ children => by
    have closing : Placeholder.indices ")" = [] := Placeholder.indices_eq_nil_of_plain (by decide)
    rw [Predicate.rendered, String.append_assoc, Placeholder.indices_append_of_plain (by decide),
      Placeholder.indices_append _ (by decide), closing, List.append_nil,
      PredicateTree.indices_rendered plain index children, Predicate.texts]

/-- If no percent sign is used to write the placeholders, a scan finds the marks in the caller's
texts and nothing else. -/
theorem PredicateTree.indices_rendered (plain : ∀ i, '%' ∉ (mark i).toList) (index : Nat) :
    ∀ nodes : List Predicate,
      Placeholder.indices (PredicateTree.rendered mark index nodes) =
        (PredicateTree.texts nodes).flatMap Placeholder.indices
  | [] => by
    rw [PredicateTree.rendered]
    rfl
  | node :: rest => by
    rw [PredicateTree.rendered,
      Placeholder.indices_append _ (PredicateTree.leadingDigits_renderedBehind mark _ rest),
      node.indices_rendered plain, PredicateTree.indices_renderedBehind plain _ rest,
      PredicateTree.texts, List.flatMap_append]

theorem PredicateTree.indices_renderedBehind (plain : ∀ i, '%' ∉ (mark i).toList) (index : Nat) :
    ∀ nodes : List Predicate,
      Placeholder.indices (PredicateTree.renderedBehind mark index nodes) =
        (PredicateTree.texts nodes).flatMap Placeholder.indices
  | [] => by
    rw [PredicateTree.renderedBehind]
    rfl
  | node :: rest => by
    rw [PredicateTree.renderedBehind,
      Placeholder.indices_append _ (PredicateTree.leadingDigits_renderedBehind mark _ rest),
      Placeholder.indices_append_of_plain (Where.percent_not_mem_lead _),
      node.indices_rendered plain, PredicateTree.indices_renderedBehind plain _ rest,
      PredicateTree.texts, List.flatMap_append]
end

end Plain

section Marks

variable {mark other : Nat → String}

mutual
/-- Only the marks that are used count, and only by their order. -/
theorem Predicate.rendered_congr {index start : Nat} : ∀ node : Predicate,
    (∀ i < node.boundLeaves.length, mark (index + i) = other (start + i)) →
      node.rendered mark index = node.rendered other start
  | .leaf condition, same => by
    rw [Predicate.rendered, Predicate.rendered, Condition.rendered, Condition.rendered]
    rw [Predicate.boundLeaves_leaf] at same
    by_cases isBound : condition.isBound = true
    · rw [if_pos isBound] at same
      have written : mark index = other start := same 0 Nat.one_pos
      rw [if_pos isBound, if_pos isBound, written]
    · rw [if_neg isBound, if_neg isBound]
  | .raw _ _, _ => by rw [Predicate.rendered, Predicate.rendered]
  | .group _ children, same => by
    rw [Predicate.rendered, Predicate.rendered, PredicateTree.rendered_congr children same]

theorem PredicateTree.rendered_congr {index start : Nat} : ∀ nodes : List Predicate,
    (∀ i < (PredicateTree.boundLeaves nodes).length, mark (index + i) = other (start + i)) →
      PredicateTree.rendered mark index nodes = PredicateTree.rendered other start nodes
  | [], _ => by rw [PredicateTree.rendered, PredicateTree.rendered]
  | node :: rest, same => by
    rw [PredicateTree.boundLeaves_cons, List.length_append] at same
    rw [PredicateTree.rendered, PredicateTree.rendered,
      node.rendered_congr fun i bound => same i (Nat.lt_add_right _ bound),
      PredicateTree.renderedBehind_congr rest]
    intro i bound
    rw [Nat.add_assoc, Nat.add_assoc]
    exact same _ (Nat.add_lt_add_left bound _)

theorem PredicateTree.renderedBehind_congr {index start : Nat} : ∀ nodes : List Predicate,
    (∀ i < (PredicateTree.boundLeaves nodes).length, mark (index + i) = other (start + i)) →
      PredicateTree.renderedBehind mark index nodes =
        PredicateTree.renderedBehind other start nodes
  | [], _ => by rw [PredicateTree.renderedBehind, PredicateTree.renderedBehind]
  | node :: rest, same => by
    rw [PredicateTree.boundLeaves_cons, List.length_append] at same
    rw [PredicateTree.renderedBehind, PredicateTree.renderedBehind,
      node.rendered_congr fun i bound => same i (Nat.lt_add_right _ bound),
      PredicateTree.renderedBehind_congr rest]
    intro i bound
    rw [Nat.add_assoc, Nat.add_assoc]
    exact same _ (Nat.add_lt_add_left bound _)
end

end Marks

end SelectCompiler
