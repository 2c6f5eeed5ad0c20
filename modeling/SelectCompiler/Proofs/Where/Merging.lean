import Mathlib.Control.Monad.Basic
import SelectCompiler.Predicate.Composition
import SelectCompiler.Proofs.Where.Trimmed

/-!
Merged filters. A filter behind another one has the text and the parameters that it has on its own
when its numbering goes on from where the other one left off, so filters may be compiled one by one
or merged and compiled at once.
-/

namespace SelectCompiler.Where

section Sequences

variable (index : Nat)

theorem Clause.text_append (clause : Clause) :
    (Clause.text "" index).append clause = clause := by
  simp [Clause.append, Clause.text]

theorem Clause.append_text (clause : Clause) :
    clause.append (.text "" clause.next) = clause := by
  simp [Clause.append, Clause.text]

theorem Clause.append_assoc (first second third : Clause) :
    (first.append second).append third = first.append (second.append third) := by
  simp only [Clause.append, String.append_assoc, List.append_assoc]

theorem Clause.behind_append (lead : String) (first second : Clause) :
    (first.append second).behind lead = (first.behind lead).append second := by
  simp only [Clause.append, Clause.behind, String.append_assoc]

/-- A group is its members in parentheses; their text is not blank anyway. -/
theorem compileNode_group (connective : Connective) {children : List Predicate}
    (filled : children ≠ []) :
    compileNode index (.group connective children) =
      Clause.parenthesized <$> compileSiblings index children := by
  have nonempty : children.isEmpty = false := List.isEmpty_eq_false_iff.mpr filled
  cases compiled : compileSiblings index children with
  | error fault =>
    simp only [compileNode, nonempty, compiled]
    rfl
  | ok inner =>
    exact compileNode_group_eq_ok_iff.mpr
      ⟨filled, inner, compiled, compileSiblings_visible filled compiled, rfl⟩

theorem compileFollowing_append (first second : List Predicate) :
    compileFollowing index (first ++ second) = (do
      let clause ← compileFollowing index first
      clause.append <$> compileFollowing clause.next second) := by
  induction first generalizing index with
  | nil =>
    rw [List.nil_append, compileFollowing]
    change _ = (Clause.text "" index).append <$> compileFollowing index second
    rw [funext (Clause.text_append index)]
    exact (id_map _).symm
  | cons node rest ih =>
    rw [List.cons_append, compileFollowing, compileFollowing, bind_assoc]
    refine bind_congr fun head => ?_
    rw [ih, bind_assoc, bind_assoc]
    refine bind_congr fun clause => ?_
    rw [pure_bind, bind_pure_comp, Functor.map_map]
    simp only [← Clause.append_assoc]
    rfl

/-- Predicates behind a sequence are compiled behind its text, with the indices that it left. -/
theorem compileSiblings_append {first : List Predicate} (filled : first ≠ [])
    (second : List Predicate) :
    compileSiblings index (first ++ second) = (do
      let clause ← compileSiblings index first
      clause.append <$> compileFollowing clause.next second) := by
  obtain ⟨node, rest, rfl⟩ := List.exists_cons_of_ne_nil filled
  rw [List.cons_append, compileSiblings, compileSiblings, bind_assoc]
  refine bind_congr fun head => ?_
  rw [compileFollowing_append, bind_assoc, bind_assoc]
  refine bind_congr fun clause => ?_
  rw [pure_bind, bind_pure_comp, Functor.map_map]
  simp only [← Clause.append_assoc]
  rfl

/-- A sequence behind others has its own text behind the connective of its first predicate. -/
theorem compileFollowing_withConnective (seam : Connective) (node : Predicate)
    (rest : List Predicate) :
    compileFollowing index (node.withConnective seam :: rest) =
      Clause.behind (" " ++ seam.sql ++ " ") <$> compileSiblings index (node :: rest) := by
  have joined : (node.withConnective seam).connective = seam := by cases node <;> rfl
  simp only [compileFollowing, compileSiblings, compileNode_withConnective, joined, map_bind,
    map_pure, Clause.behind_append]

theorem compileFollowing_group (seam : Connective) {children : List Predicate}
    (filled : children ≠ []) :
    compileFollowing index [.group seam children] =
      (fun clause => clause.parenthesized.behind (" " ++ seam.sql ++ " ")) <$>
        compileSiblings index children := by
  rw [compileFollowing, compileNode_group index seam filled, bind_map_left, ← bind_pure_comp]
  refine bind_congr fun clause => ?_
  exact congrArg Except.ok (Clause.append_text _)

end Sequences

/-- The clause of a filter with that of another one behind it, joined by a connective. -/
def Clause.joined (seam : Connective) (first second : Clause) : Clause :=
  ⟨first.sql ++ " " ++ seam.sql ++ " " ++ second.sql, first.parameters ++ second.parameters,
    second.next⟩

theorem Clause.joined_eq_append (seam : Connective) (first second : Clause) :
    joined seam first second = first.append (second.behind (" " ++ seam.sql ++ " ")) := by
  simp only [joined, append, behind, String.append_assoc]

/-- A merged filter compiles to the clauses of both sides in a row, with the second one changed.
That one is numbered from where the first left off. If a side cannot be compiled it is the fault,
and of two such sides the first one. -/
structure InRow (seam : Connective) (offset : Nat) (change : Clause → Clause)
    (base addition merged : PredicateTree) : Prop where
  succeeds : ∀ result, compile merged offset = .ok result ↔
    ∃ first second, compile base offset = .ok (some first) ∧
      compile addition first.next = .ok (some second) ∧
        result = some (first.joined seam (change second))
  fails : ∀ fault, compile merged offset = .error fault ↔
    compile base offset = .error fault ∨
      ∃ first, compile base offset = .ok (some first) ∧ compile addition first.next = .error fault

/-- A merged filter compiles to the changed clause of its only side. -/
structure Alone (offset : Nat) (change : Clause → Clause) (addition merged : PredicateTree) :
    Prop where
  succeeds : ∀ result, compile merged offset = .ok result ↔
    ∃ clause, compile addition offset = .ok (some clause) ∧ result = some (change clause)
  fails : ∀ fault, compile merged offset = .error fault ↔ compile addition offset = .error fault

section Filters

variable {tree base addition : PredicateTree} (seam : Connective) (offset : Nat)

theorem compile_of_filled (filled : tree ≠ []) :
    compile tree offset = some <$> compileSiblings offset tree := by
  rw [compile, List.isEmpty_eq_false_iff.mpr filled]
  rfl

theorem compile_eq_some_of_filled {clause : Clause} (filled : tree ≠ []) :
    compile tree offset = .ok (some clause) ↔ compileSiblings offset tree = .ok clause := by
  rw [compile_eq_some_iff, and_iff_right filled]

theorem compile_eq_error_of_filled {fault : Error} (filled : tree ≠ []) :
    compile tree offset = .error fault ↔ compileSiblings offset tree = .error fault := by
  rw [compile_of_filled offset filled, map_eq_error_iff]

/-- What follows a filter as the clause of an addition, up to some change of that clause, stands in
a row with the filter. -/
theorem inRow_of_following {nodes : List Predicate} {change : Clause → Clause}
    (filled : base ≠ []) (filledToo : addition ≠ [])
    (following : ∀ index, compileFollowing index nodes =
      (fun clause => (change clause).behind (" " ++ seam.sql ++ " ")) <$>
        compileSiblings index addition) :
    InRow seam offset change base addition (base ++ nodes) := by
  have whole : base ++ nodes ≠ [] := List.append_ne_nil_of_left_ne_nil filled nodes
  constructor
  · intro result
    rw [compile_of_filled offset whole, compileSiblings_append offset filled]
    simp only [following, Functor.map_map, map_eq_ok_iff, bind_eq_ok_iff,
      compile_eq_some_of_filled _ filled, compile_eq_some_of_filled _ filledToo,
      Clause.joined_eq_append]
    constructor
    · rintro ⟨_, ⟨first, here, second, there, rfl⟩, rfl⟩
      exact ⟨first, second, here, there, rfl⟩
    · rintro ⟨first, second, here, there, rfl⟩
      exact ⟨_, ⟨first, here, second, there, rfl⟩, rfl⟩
  · intro fault
    rw [compile_eq_error_of_filled offset whole, compileSiblings_append offset filled]
    simp only [following, Functor.map_map, map_eq_error_iff, bind_eq_error_iff,
      compile_eq_some_of_filled _ filled, compile_eq_error_of_filled _ filled,
      compile_eq_error_of_filled _ filledToo]

theorem inRow_mergeWith (filled : base ≠ []) (filledToo : addition ≠ []) :
    InRow seam offset id base addition (PredicateTree.mergeWith seam base addition) := by
  obtain ⟨node, rest, rfl⟩ := List.exists_cons_of_ne_nil filledToo
  exact inRow_of_following seam offset filled filledToo fun index =>
    compileFollowing_withConnective index seam node rest

theorem inRow_mergeWrapped (filled : base ≠ []) (filledToo : addition ≠ []) :
    InRow seam offset Clause.parenthesized base addition
      (PredicateTree.mergeWrapped seam base addition) := by
  rw [PredicateTree.mergeWrapped, List.isEmpty_eq_false_iff.mpr filledToo]
  exact inRow_of_following seam offset filled filledToo fun index =>
    compileFollowing_group index seam filledToo

/-- The connective in front of the first predicate is never written. -/
theorem compile_mergeWith_nil (addition : PredicateTree) :
    compile (PredicateTree.mergeWith seam [] addition) offset = compile addition offset := by
  cases addition with
  | nil => rfl
  | cons node rest =>
    simp only [PredicateTree.mergeWith, List.nil_append, compile, List.isEmpty_cons,
      compileSiblings, compileNode_withConnective]

theorem compile_group (filled : addition ≠ []) :
    compile [.group seam addition] offset =
      (fun clause => some clause.parenthesized) <$> compileSiblings offset addition := by
  rw [compile_of_filled offset (List.cons_ne_nil _ _), compileSiblings,
    compileNode_group offset seam filled, bind_map_left, map_bind, ← bind_pure_comp]
  refine bind_congr fun clause => ?_
  exact congrArg (Except.ok ∘ some) (Clause.append_text _)

theorem alone_mergeWrapped (filled : addition ≠ []) :
    Alone offset Clause.parenthesized addition
      (PredicateTree.mergeWrapped seam [] addition) := by
  have group : PredicateTree.mergeWrapped seam [] addition = [.group seam addition] := by
    rw [PredicateTree.mergeWrapped, List.isEmpty_eq_false_iff.mpr filled]
    rfl
  rw [group]
  constructor
  · intro result
    simp only [compile_group seam offset filled, map_eq_ok_iff,
      compile_eq_some_of_filled offset filled]
  · intro fault
    rw [compile_group seam offset filled, map_eq_error_iff,
      compile_eq_error_of_filled offset filled]

end Filters

/-- A filter with an addition merged into it compiles exactly if both sides do, the second one
numbered from where the first left off, to their clauses in a row; a wrapped addition stands in
parentheses. Otherwise the fault is that of the first side, or else of the second. A side that is
empty leaves the other one as it is, an addition wrapped even if it is alone. -/
theorem compile_merged (seam : Connective) (base addition : PredicateTree) (offset : Nat) :
    (base ≠ [] → addition ≠ [] →
      InRow seam offset id base addition (PredicateTree.mergeWith seam base addition) ∧
        InRow seam offset Clause.parenthesized base addition
          (PredicateTree.mergeWrapped seam base addition)) ∧
      (base = [] →
        compile (PredicateTree.mergeWith seam base addition) offset = compile addition offset ∧
          (addition ≠ [] → Alone offset Clause.parenthesized addition
            (PredicateTree.mergeWrapped seam base addition))) ∧
      (addition = [] →
        compile (PredicateTree.mergeWith seam base addition) offset = compile base offset ∧
          compile (PredicateTree.mergeWrapped seam base addition) offset = compile base offset) ∧
      (compile base offset = .ok none ↔ base = []) := by
  refine ⟨?_, ?_, ?_, compile_eq_none_iff⟩
  · intro filled filledToo
    exact ⟨inRow_mergeWith seam offset filled filledToo,
      inRow_mergeWrapped seam offset filled filledToo⟩
  · rintro rfl
    exact ⟨compile_mergeWith_nil seam offset addition, alone_mergeWrapped seam offset⟩
  · rintro rfl
    exact ⟨rfl, rfl⟩

namespace TwoFilters

def base : PredicateTree :=
  [.leaf (.eq "a.x" (.ofNat 1)), .raw "a.y > 0" .or]

def addition : PredicateTree :=
  [.raw "b.z IS NULL" .and, .leaf { Condition.eq "b.w" (.string "m") with connective := .or }]

/-- Its second test has no field. -/
def faulty : PredicateTree :=
  [.raw "b.z IS NULL" .and, .leaf (.eq " " (.ofNat 2))]

end TwoFilters

open TwoFilters in
theorem compile_merged_twoFilters :
    compile (PredicateTree.mergeWith .or base addition) 3 = .ok (some
        ⟨"a.x = %3 OR a.y > 0 OR b.z IS NULL OR b.w = %4",
          [⟨3, .ofNat 1, .string⟩, ⟨4, .string "m", .string⟩], 5⟩) ∧
      compile (PredicateTree.mergeWrapped .and base addition) 3 = .ok (some
        ⟨"a.x = %3 OR a.y > 0 AND (b.z IS NULL OR b.w = %4)",
          [⟨3, .ofNat 1, .string⟩, ⟨4, .string "m", .string⟩], 5⟩) ∧
      compile (PredicateTree.mergeWrapped .or [] addition) 3 = .ok (some
        ⟨"(b.z IS NULL OR b.w = %3)", [⟨3, .string "m", .string⟩], 4⟩) ∧
      compile (PredicateTree.mergeWith .or base faulty) 3 =
        .error (.emptyClause .conditionField) := by
  have filled : base ≠ [] := List.cons_ne_nil _ _
  have filledToo : addition ≠ [] := List.cons_ne_nil _ _
  have first : compile base 3 =
      .ok (some ⟨"a.x = %3 OR a.y > 0", [⟨3, .ofNat 1, .string⟩], 4⟩) := by decide +kernel
  have second : compile addition 4 =
      .ok (some ⟨"b.z IS NULL OR b.w = %4", [⟨4, .string "m", .string⟩], 5⟩) := by decide +kernel
  have only : compile addition 3 =
      .ok (some ⟨"b.z IS NULL OR b.w = %3", [⟨3, .string "m", .string⟩], 4⟩) := by decide +kernel
  have fault : compile faulty 4 = .error (.emptyClause .conditionField) := by decide +kernel
  have plain := ((compile_merged .or base addition 3).1 filled filledToo).1
  have wrapped := ((compile_merged .and base addition 3).1 filled filledToo).2
  have alone := ((compile_merged .or [] addition 3).2.1 rfl).2 filledToo
  have broken := ((compile_merged .or base faulty 3).1 filled (List.cons_ne_nil _ _)).1
  exact ⟨(plain.succeeds _).mpr ⟨_, _, first, second, rfl⟩,
    (wrapped.succeeds _).mpr ⟨_, _, first, second, rfl⟩, (alone.succeeds _).mpr ⟨_, only, rfl⟩,
    (broken.fails _).mpr (.inr ⟨_, first, fault⟩)⟩

end SelectCompiler.Where
