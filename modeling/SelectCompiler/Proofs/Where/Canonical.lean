import SelectCompiler.Proofs.Predicate.Canonical
import SelectCompiler.Proofs.Where.Revision

/-!
Filters that went through their canonical JSON. What is read back may lack null values that the
filter had; this makes no difference to what it compiles to.
-/

namespace SelectCompiler

namespace Where

theorem Clause.mapParameters_id : Clause.mapParameters id = id := by
  funext clause
  rw [mapParameters, List.map_id]
  rfl

/-- A test compiles alike with a null value and without one. -/
theorem rewrites_reread {condition : Condition} (named : condition.hint.IsCanonical) :
    Rewrites .reread id condition := by
  intro index
  rw [Clause.mapParameters_id, id_map, compileCondition, compileCondition]
  have hint : (condition.revise .reread).hint = condition.hint :=
    condition.hint.ofName_name_iff.mpr named
  rw [hint]
  by_cases null : condition.value = some .null
  · have value : (condition.revise .reread).value = none := if_pos null
    rw [value, null]
    rfl
  · have value : (condition.revise .reread).value = condition.value := if_neg null
    rw [value]
    rfl

end Where

/-- Written as JSON and read back, whatever type is the default, a filter whose hints are names as
the reader leaves them is refused exactly when some test holds a list or an object; otherwise the
filter that is read compiles to the same clause or fails with the same fault. -/
theorem PredicateTree.compile_read_toJson (tree : PredicateTree) (hint : TypeHint)
    (named : PredicateTree.Every (fun condition => condition.hint.IsCanonical) tree) :
    ((∃ fault, PredicateTree.read hint tree.toJson = .error fault) ↔
        ∃ condition ∈ PredicateTree.leaves tree, ¬condition.IsScalar) ∧
      ∀ found, PredicateTree.read hint tree.toJson = .ok found →
        ∀ offset, Where.compile found offset = Where.compile tree offset := by
  constructor
  · have scalar : (∃ condition ∈ PredicateTree.leaves tree, ¬condition.IsScalar) ↔
        ¬PredicateTree.Every Condition.IsScalar tree := by
      simp only [PredicateTree.Every, not_forall, exists_prop]
    rw [scalar]
    cases read : PredicateTree.read hint tree.toJson with
    | error fault =>
      refine iff_of_true ⟨fault, rfl⟩ fun every => ?_
      have returned := (read_toJson_eq_ok_iff hint).mpr ⟨every, rfl⟩
      rw [read] at returned
      contradiction
    | ok found =>
      refine iff_of_false (by simp) fun structured => ?_
      exact structured ((read_toJson_eq_ok_iff hint).mp read).1
  · intro found read offset
    obtain ⟨_, rfl⟩ := (read_toJson_eq_ok_iff hint).mp read
    have own : PredicateTree.Every (Where.Rewrites .reread id) tree :=
      fun condition member => Where.rewrites_reread (named condition member)
    rw [Where.compile_revise offset own, Where.Clause.mapParameters_id, Option.map_id, id_map]

/-- A test with a null value beside a group with a value of a custom type and a blank comparator. -/
def nullFilter : PredicateTree :=
  [.leaf ⟨"a", "IS NULL", some .null, .date, .or⟩,
    .group .or [.leaf ⟨"b", " ", some (.ofNat 3), .other "contact", .and⟩, .raw "c" .or]]

theorem compile_read_toJson_nullFilter :
    ∃ found, PredicateTree.read .money nullFilter.toJson = .ok found ∧ found ≠ nullFilter ∧
      ∀ offset, Where.compile found offset = Where.compile nullFilter offset := by
  have named : PredicateTree.Every (fun condition => condition.hint.IsCanonical) nullFilter := by
    intro condition member
    simp only [nullFilter, PredicateTree.leaves, Predicate.leaves, List.append_nil,
      List.nil_append, List.cons_append, List.mem_cons, List.not_mem_nil, or_false] at member
    rcases member with rfl | rfl
    · exact ⟨"Date", by decide +kernel⟩
    · exact ⟨"contact", by decide +kernel⟩
  have read : PredicateTree.read .money nullFilter.toJson = .ok
      [.leaf ⟨"a", "IS NULL", none, .date, .or⟩,
        .group .or [.leaf ⟨"b", " ", some (.ofNat 3), .other "contact", .and⟩, .raw "c" .or]] := by
    decide +kernel
  exact ⟨_, read, by decide +kernel,
    (PredicateTree.compile_read_toJson nullFilter .money named).2 _ read⟩

end SelectCompiler
