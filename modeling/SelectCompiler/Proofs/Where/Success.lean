import SelectCompiler.Proofs.Outcome
import SelectCompiler.Proofs.Predicate.Leaves
import SelectCompiler.Where.Clause

/-!
When a filter has SQL text, and which text it is: one statement for every part of a filter, each
telling all that the compilation of this part can return.
-/

namespace SelectCompiler

/-- A value stands for nothing, for a parameter, or for a structure that cannot be bound. -/
theorem Json.null_or_bindable_or_structured (value : Json) :
    value = .null ∨ value.isBindable = true ∨ value.isStructured = true := by
  cases value <;> simp [isBindable, isStructured]

namespace Where

/-- The comparator as it is written before a bound value. -/
def comparison (comparator : String) : String :=
  if (Text.trim comparator).isEmpty then "=" else Text.trim comparator

/-- The clause of a test that binds a value. -/
def boundClause (index : Nat) (condition : Condition) (value : Json) : Clause :=
  ⟨Text.trim condition.field ++ " " ++ comparison condition.comparator ++ " "
    ++ Placeholder.write index, [⟨index, value, condition.hint⟩], index + 1⟩

/-- The clause of a test whose comparator says all there is to say. -/
def plainClause (index : Nat) (condition : Condition) : Clause :=
  .text (Text.trim condition.field ++ " " ++ Text.trim condition.comparator) index

theorem nonBlank_eq_ok_iff {part : EmptyPart} {text kept : String} :
    nonBlank part text = .ok kept ↔ Text.trim text ≠ "" ∧ kept = Text.trim text := by
  unfold nonBlank
  by_cases blank : Text.trim text = ""
  · simp [blank]
  · simpa [blank] using eq_comm

variable {index : Nat} {clause : Clause}

theorem bindValue_eq_ok_iff {condition : Condition} {value : Json} :
    bindValue index (Text.trim condition.field) (Text.trim condition.comparator) value
        condition.hint = .ok clause ↔
      index + 1 < Text.wordSize ∧ clause = boundClause index condition value := by
  unfold bindValue
  by_cases fits : index + 1 < Text.wordSize
  · simpa [fits, boundClause, comparison] using eq_comm
  · simp [fits]

theorem standAlone_eq_ok_iff {condition : Condition} :
    standAlone index (Text.trim condition.field) (Text.trim condition.comparator) = .ok clause ↔
      Text.trim condition.comparator ≠ "" ∧ clause = plainClause index condition := by
  unfold standAlone
  by_cases blank : Text.trim condition.comparator = ""
  · simp [blank]
  · simpa [blank, plainClause] using eq_comm

/-- A test has text when its field is not blank and it either binds a scalar for which an index is
left or has no value and a comparator. -/
theorem compileCondition_eq_ok_iff {condition : Condition} :
    compileCondition index condition = .ok clause ↔
      Text.trim condition.field ≠ "" ∧
        ((∃ value, condition.value = some value ∧ value.isBindable = true ∧
            index + 1 < Text.wordSize ∧ clause = boundClause index condition value) ∨
          ((condition.value = none ∨ condition.value = some .null) ∧
            Text.trim condition.comparator ≠ "" ∧ clause = plainClause index condition)) := by
  unfold compileCondition
  simp only [bind_eq_ok_iff, nonBlank_eq_ok_iff, and_assoc, exists_and_left, exists_eq_left]
  refine and_congr_right fun _ => ?_
  cases given : condition.value with
  | none => simp [standAlone_eq_ok_iff]
  | some value =>
    rcases value.null_or_bindable_or_structured with rfl | bindable | structured
    · simp [standAlone_eq_ok_iff, Json.isBindable]
    · cases value <;> simp_all [Json.isBindable, Json.isStructured, bindValue_eq_ok_iff]
    · cases value <;> simp_all [Json.isBindable, Json.isStructured]

/-- The connective before a predicate is no part of its own text. -/
theorem compileNode_withConnective (connective : Connective) (node : Predicate) :
    compileNode index (node.withConnective connective) = compileNode index node := by
  cases node <;> rfl

theorem compileNode_raw_eq_ok_iff {sql : String} {connective : Connective} :
    compileNode index (.raw sql connective) = .ok clause ↔
      Text.trim sql ≠ "" ∧ clause = .text (Text.trim sql) index := by
  simp only [compileNode, bind_eq_ok_iff, nonBlank_eq_ok_iff, and_assoc, exists_and_left,
    exists_eq_left, pure_eq_ok_iff]

theorem compileNode_group_eq_ok_iff {connective : Connective} {children : List Predicate} :
    compileNode index (.group connective children) = .ok clause ↔
      children ≠ [] ∧ ∃ inner, compileSiblings index children = .ok inner ∧
        Text.trim inner.sql ≠ "" ∧ clause = inner.parenthesized := by
  cases children with
  | nil => simp [compileNode, bind, Except.bind, throw, throwThe, MonadExceptOf.throw]
  | cons node rest =>
    simp only [compileNode, List.isEmpty_cons, Bool.false_eq_true, ↓reduceIte, bind_eq_ok_iff,
      nonBlank_eq_ok_iff, pure_eq_ok_iff]
    simp

theorem compileSiblings_nil_eq_ok_iff :
    compileSiblings index [] = .ok clause ↔ clause = .text "" index := by
  rw [compileSiblings, ok_eq_ok_iff]

theorem compileSiblings_cons_eq_ok_iff {node : Predicate} {rest : List Predicate} :
    compileSiblings index (node :: rest) = .ok clause ↔
      ∃ first following, compileNode index node = .ok first ∧
        compileFollowing first.next rest = .ok following ∧ clause = first.append following := by
  simp only [compileSiblings, bind_eq_ok_iff, pure_eq_ok_iff, exists_and_left]

theorem compileFollowing_nil_eq_ok_iff :
    compileFollowing index [] = .ok clause ↔ clause = .text "" index := by
  rw [compileFollowing, ok_eq_ok_iff]

theorem compileFollowing_cons_eq_ok_iff {node : Predicate} {rest : List Predicate} :
    compileFollowing index (node :: rest) = .ok clause ↔
      ∃ first following, compileNode index node = .ok first ∧
        compileFollowing first.next rest = .ok following ∧
        clause = (first.behind (" " ++ node.connective.sql ++ " ")).append following := by
  simp only [compileFollowing, bind_eq_ok_iff, pure_eq_ok_iff, exists_and_left]

theorem compile_eq_none_iff {tree : PredicateTree} : compile tree index = .ok none ↔ tree = [] := by
  cases tree with
  | nil => simp [compile]
  | cons node rest =>
    cases compiled : compileSiblings index (node :: rest) <;>
      simp [compile, compiled, Functor.map, Except.map]

theorem compile_eq_some_iff {tree : PredicateTree} :
    compile tree index = .ok (some clause) ↔
      tree ≠ [] ∧ compileSiblings index tree = .ok clause := by
  cases tree with
  | nil => simp [compile]
  | cons node rest =>
    cases compiled : compileSiblings index (node :: rest) <;>
      simp [compile, compiled, Functor.map, Except.map]

end Where

end SelectCompiler
