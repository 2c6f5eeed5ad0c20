import SelectCompiler.Proofs.Text.Words
import SelectCompiler.Proofs.Where.Success

/-!
Filters that look for any of several values in one field. They have a text whenever the indices
suffice, with one test and one parameter for each value.
-/

namespace SelectCompiler

open Where (Clause Parameter)

/-- A test for each of the values, one as an alternative to the other. -/
def PredicateTree.anyOf (field : String) (values : List Json) : PredicateTree :=
  values.map fun value => .leaf { Condition.eq field value with connective := .or }

namespace Where

variable {field : String} {index : Nat} {values : List Json} {value : Json}

/-- The tests for as many values as there are, numbered from an index on. -/
def alternativeTexts (field : String) (index : Nat) (values : List Json) : List String :=
  values.mapIdx fun i _ => field ++ " = " ++ Placeholder.write (index + i)

/-- The values as parameters, numbered from an index on. -/
def alternativeParameters (index : Nat) (values : List Json) : List Parameter :=
  values.mapIdx fun i value => ⟨index + i, value, .string⟩

theorem alternativeTexts_cons :
    alternativeTexts field index (value :: values) =
      (field ++ " = " ++ Placeholder.write index) :: alternativeTexts field (index + 1) values := by
  simp only [alternativeTexts, List.mapIdx_cons, Nat.add_zero, Nat.add_assoc, Nat.add_comm 1]

theorem alternativeParameters_cons :
    alternativeParameters index (value :: values) =
      ⟨index, value, .string⟩ :: alternativeParameters (index + 1) values := by
  simp only [alternativeParameters, List.mapIdx_cons, Nat.add_zero, Nat.add_assoc, Nat.add_comm 1]

section Named

variable (kept : Text.trim field = field) (filled : field ≠ "")

include kept filled

theorem compileNode_anyOf (bindable : value.isBindable = true)
    (fits : index + 1 < Text.wordSize) :
    compileNode index (.leaf { Condition.eq field value with connective := .or }) =
      .ok ⟨field ++ " = " ++ Placeholder.write index, [⟨index, value, .string⟩], index + 1⟩ := by
  have given : (Condition.eq field value).value = some value := by
    refine if_neg ?_
    rintro rfl
    contradiction
  have text : boundClause index { Condition.eq field value with connective := .or } value =
      ⟨field ++ " = " ++ Placeholder.write index, [⟨index, value, .string⟩], index + 1⟩ := by
    have equals : comparison "=" = "=" := by decide +kernel
    have compared : (Condition.eq field value).comparator = "=" := rfl
    have own : (Condition.eq field value).field = field := rfl
    simp only [boundClause, own, compared, kept, equals, String.append_assoc]
    rfl
  have named : Text.trim (Condition.eq field value).field ≠ "" := by
    change Text.trim field ≠ ""
    rwa [kept]
  rw [compileNode, compileCondition_eq_ok_iff, ← text]
  exact ⟨named, .inl ⟨value, given, bindable, fits, rfl⟩⟩

theorem compileFollowing_anyOf (bindable : ∀ value ∈ values, value.isBindable = true)
    (fits : index + values.length < Text.wordSize) :
    compileFollowing index (PredicateTree.anyOf field values) =
      .ok ⟨String.join ((alternativeTexts field index values).map (" OR " ++ ·)),
        alternativeParameters index values, index + values.length⟩ := by
  induction values generalizing index with
  | nil => rfl
  | cons value rest ih =>
    obtain ⟨first, others⟩ := List.forall_mem_cons.mp bindable
    rw [List.length_cons] at fits
    have word : index + 1 < Text.wordSize := by omega
    have left : index + 1 + rest.length < Text.wordSize := by omega
    rw [PredicateTree.anyOf, List.map_cons, compileFollowing_cons_eq_ok_iff]
    refine ⟨_, _, compileNode_anyOf kept filled first word, ih others left, ?_⟩
    rw [alternativeTexts_cons, alternativeParameters_cons, List.map_cons, String.join_cons,
      List.length_cons, Nat.add_comm rest.length, ← Nat.add_assoc]
    rfl

/-- The tests are written with OR between them, and each has the parameter of its value. -/
theorem compileSiblings_anyOf (bindable : ∀ value ∈ values, value.isBindable = true)
    (fits : index + values.length < Text.wordSize) :
    compileSiblings index (PredicateTree.anyOf field values) =
      .ok ⟨" OR ".intercalate (alternativeTexts field index values),
        alternativeParameters index values, index + values.length⟩ := by
  cases values with
  | nil => rfl
  | cons value rest =>
    obtain ⟨first, others⟩ := List.forall_mem_cons.mp bindable
    rw [List.length_cons] at fits
    have word : index + 1 < Text.wordSize := by omega
    have left : index + 1 + rest.length < Text.wordSize := by omega
    rw [PredicateTree.anyOf, List.map_cons, compileSiblings_cons_eq_ok_iff]
    refine ⟨_, _, compileNode_anyOf kept filled first word,
      compileFollowing_anyOf kept filled others left, ?_⟩
    rw [alternativeTexts_cons, alternativeParameters_cons, Text.intercalate_cons,
      List.length_cons, Nat.add_comm rest.length, ← Nat.add_assoc]
    rfl

/-- A filter of no alternatives has no text. -/
theorem compile_anyOf (bindable : ∀ value ∈ values, value.isBindable = true)
    (fits : index + values.length < Text.wordSize) :
    compile (PredicateTree.anyOf field values) index =
      .ok (if values.isEmpty then none
        else some ⟨" OR ".intercalate (alternativeTexts field index values),
          alternativeParameters index values, index + values.length⟩) := by
  cases values with
  | nil => rfl
  | cons value rest =>
    have some : PredicateTree.anyOf field (value :: rest) ≠ [] := List.cons_ne_nil _ _
    exact compile_eq_some_iff.mpr ⟨some, compileSiblings_anyOf kept filled bindable fits⟩

end Named

end Where

end SelectCompiler
