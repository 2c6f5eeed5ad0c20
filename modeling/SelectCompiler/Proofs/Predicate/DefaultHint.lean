import SelectCompiler.Proofs.Predicate.Alike
import SelectCompiler.Proofs.Predicate.Canonical

/-!
What the default type does to a filter. Read with a type that no name stands for, the tests that
name none are told apart from the others, and any default type can be put in for it afterwards.
-/

namespace SelectCompiler

/-- A type that no name stands for; as the default it marks the tests that name none. -/
def TypeHint.unnamed : TypeHint := .other " "

theorem TypeHint.not_isCanonical_unnamed : ¬TypeHint.unnamed.IsCanonical := by
  rw [← TypeHint.ofName_name_iff]
  decide +kernel

/-- The type, with a fallback for the one that marks tests without. -/
def TypeHint.withFallback (hint fallback : TypeHint) : TypeHint :=
  if hint = unnamed then fallback else hint

section Fallbacks

variable (fallback : TypeHint)

@[simp] theorem TypeHint.withFallback_self : fallback.withFallback fallback = fallback := by
  rw [withFallback, ite_self]

@[simp] theorem TypeHint.withFallback_unnamed : unnamed.withFallback fallback = fallback :=
  if_pos rfl

theorem TypeHint.withFallback_of_isCanonical {hint : TypeHint} (named : hint.IsCanonical) :
    hint.withFallback fallback = hint := by
  rw [withFallback, if_neg]
  rintro rfl
  exact not_isCanonical_unnamed named

end Fallbacks

/-- The tests that name no type get the fallback. -/
def Revision.typed (fallback : TypeHint) : Revision where
  hint named := named.withFallback fallback

theorem Predicate.describesOnly_typed (fallback : TypeHint) :
    DescribesOnly fallback fun condition => condition.revise (.typed fallback) = condition := by
  intro field members connective condition described
  obtain ⟨_, _, _, _, name, _, chosen⟩ := ownCondition_eq_ok_iff.mp described
  refine Condition.revise_eq_self_iff.mpr ⟨rfl, ?_⟩
  rw [chosen]
  cases name with
  | none => exact fallback.withFallback_self
  | some name => exact TypeHint.withFallback_of_isCanonical fallback ⟨name, rfl⟩

/-- The filter read with a default type is the one read without, with that type put in. -/
theorem PredicateTree.read_eq_ok_iff_typed {fallback : TypeHint} {value : Json}
    {tree : PredicateTree} :
    PredicateTree.read fallback value = .ok tree ↔
      ∃ untyped, PredicateTree.read .unnamed value = .ok untyped ∧
        tree = PredicateTree.revise (.typed fallback) untyped := by
  have blind : (Revision.typed fallback).hint .unnamed = (Revision.typed fallback).hint fallback :=
    fallback.withFallback_unnamed.trans fallback.withFallback_self.symm
  have typed := PredicateTree.read_every (Predicate.describesOnly_typed fallback) value
  have agree := PredicateTree.read_agree (Predicate.alike_self blind value)
  generalize PredicateTree.read .unnamed value = before at agree ⊢
  generalize PredicateTree.read fallback value = after at typed agree ⊢
  cases agree with
  | @returned untyped found same =>
    have kept := (PredicateTree.revise_eq_self_iff found).mpr (typed found rfl)
    simp only [ok_eq_ok_iff, exists_eq_left, same, kept]
  | refused => simp

end SelectCompiler
