import SelectCompiler.Proofs.Masking.Basic
import SelectCompiler.Proofs.Predicate.Alike

/-!
The reader and masked descriptions. A masked description is alike to the description itself up to
the values of tests, so the filter that is read is the same up to these, and neither the shape of an
object nor the kind of a fault changes.
-/

namespace SelectCompiler.Predicate

/-- No test tells a masked value from the value. -/
theorem confuses_mask (value : Json) : Revision.masked.Confuses value.maskBound.mask value := by
  have structured : value.maskBound.mask.isStructured = value.isStructured := by
    rw [Json.isStructured_mask, Json.isStructured_maskBound]
  cases value with
  | null => exact .inl (.inl rfl)
  | array items => exact .inl (.inr ⟨structured, rfl⟩)
  | object members => exact .inl (.inr ⟨structured, rfl⟩)
  | _ => exact .inr ⟨rfl, rfl, rfl⟩

variable {hint : TypeHint}

mutual
theorem alike_maskBound : ∀ value : Json, Alike .masked hint hint value.maskBound value
  | .null => alike_self rfl .null
  | .bool value => alike_self rfl (.bool value)
  | .number value => alike_self rfl (.number value)
  | .string text => alike_self rfl (.string text)
  | .array items => .array (alike_maskBoundItems items)
  | .object members => .object rfl (related_maskBoundMembers members)

theorem alike_maskBoundItems : ∀ items : List Json,
    List.Forall₂ (Alike .masked hint hint) (Json.maskBoundItems items) items
  | [] => .nil
  | item :: rest => .cons (alike_maskBound item) (alike_maskBoundItems rest)

theorem related_maskBoundMembers : ∀ members : List (String × Json),
    Json.Members.Related (Revision.masked.Relates (Alike .masked hint hint))
      (Json.maskBoundMembers members) members
  | [] => .nil
  | (key, value) :: rest => by
    rw [Json.maskBoundMembers_cons]
    refine .cons ⟨rfl, ?_⟩ (related_maskBoundMembers rest)
    by_cases own : key = "value"
    · rw [own, Revision.relates_value]
      exact confuses_mask value
    · rw [Revision.relates_of_ne own, Json.maskEntry_of_ne own]
      exact alike_maskBound value
end

end SelectCompiler.Predicate

namespace SelectCompiler

/-- The filters of two descriptions that differ in bound values alone are the same up to the values
of their tests. -/
theorem PredicateTree.read_seen (hint : TypeHint) (value : Json) :
    seen PredicateTree.mask (PredicateTree.read hint value.maskBound) =
      seen PredicateTree.mask (PredicateTree.read hint value) := by
  rw [show PredicateTree.mask = PredicateTree.revise .masked from
    funext PredicateTree.mask_eq_revise]
  exact (PredicateTree.read_agree (Predicate.alike_maskBound value)).seen

end SelectCompiler
