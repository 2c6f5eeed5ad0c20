import Mathlib.Control.Monad.Basic
import Mathlib.Data.List.Forall2
import SelectCompiler.Proofs.Json.Members
import SelectCompiler.Proofs.Predicate.Canonical

/-!
Composition of filter descriptions. Whatever shape the two descriptions have, the composed one is
read as the composition of what they are read as, and it is shaped as the base is.
-/

namespace SelectCompiler

namespace Json.Members

variable (members : Members) {key : String} (value : Json)

/-- The members have the same keys in the same order, and the same values but for one key. -/
def AgreeBut (key : String) (first second : Members) : Prop :=
  List.Forall₂ (fun old new => new.1 = old.1 ∧ (old.1 ≠ key → new.2 = old.2)) first second

theorem agreeBut_self (key : String) (members : Members) : members.AgreeBut key members :=
  List.forall₂_same.mpr fun _ _ => ⟨rfl, fun _ => rfl⟩

/-- A member that is there is overwritten in its place. -/
theorem agreeBut_insert (carried : (members.get? key).isSome = true) :
    members.AgreeBut key (members.insert key value) := by
  induction members with
  | nil => contradiction
  | cons member rest ih =>
    rw [insert]
    split
    · rename_i same
      exact .cons ⟨same.symm, fun other => absurd same other⟩ (agreeBut_self key rest)
    · rename_i other
      refine .cons ⟨rfl, fun _ => rfl⟩ (ih ?_)
      rwa [get?, List.lookup_cons, beq_false_of_ne (Ne.symm other)] at carried

end Json.Members

/-- A composed description has the shape of its base: a document with all members but the filter as
they were, or a list. -/
inductive Json.ShapedAs : Json → Json → Prop where
  | document {members kept : Json.Members} (carried : (members.get? filterKey).isSome = true)
      (agree : members.AgreeBut filterKey kept) : ShapedAs (.object members) (.object kept)
  | list {base : Json} {items : List Json}
      (bare : ∀ members, base = .object members → Json.Members.get? members filterKey = none) :
      ShapedAs base (.array items)

/-- The base with a filter in place of its own. -/
def Json.withFilter (base filter : Json) : Json :=
  match base with
  | .object members =>
    if (Json.Members.get? members filterKey).isSome then
      .object (Json.Members.insert members filterKey filter)
    else filter
  | _ => filter

section Composition

variable {wrap : Option Connective} {base addition composed filter : Json} {members : Json.Members}
  {tree added : PredicateTree}

theorem filterIn_object (carried : members.get? filterKey = some filter) :
    filterIn (.object members) = filter := by
  rw [filterIn, carried, Option.getD_some]

theorem Json.withFilter_object (carried : (members.get? filterKey).isSome = true) :
    (Json.object members).withFilter filter = .object (members.insert filterKey filter) := by
  rw [Json.withFilter, if_pos carried]

theorem Json.withFilter_bare
    (bare : ∀ members, base = .object members → Json.Members.get? members filterKey = none) :
    base.withFilter filter = filter := by
  cases base with
  | object members =>
    rw [Json.withFilter, bare members rfl]
    rfl
  | _ => rfl

/-- A description carries its filter as a document does, or it is the filter. -/
theorem Json.carries_or_bare (base : Json) :
    (∃ members, base = .object members ∧ (Json.Members.get? members filterKey).isSome = true) ∨
      ∀ members, base = .object members → Json.Members.get? members filterKey = none := by
  by_cases carries :
      ∃ members, base = .object members ∧ (Json.Members.get? members filterKey).isSome = true
  · exact .inl carries
  · refine .inr fun members same => ?_
    rw [← Option.not_isSome_iff_eq_none]
    exact fun carried => carries ⟨members, same, carried⟩

/-- The filter of the composed description is the one that was put in. -/
theorem filterIn_withFilter (items : List Json) :
    filterIn (base.withFilter (.array items)) = .array items := by
  rcases base.carries_or_bare with ⟨members, rfl, carried⟩ | bare
  · rw [Json.withFilter_object carried]
    exact filterIn_object (Json.Members.get?_insert_self members _)
  · rw [Json.withFilter_bare bare]
    rfl

theorem shapedAs_withFilter (items : List Json) :
    base.ShapedAs (base.withFilter (.array items)) := by
  rcases base.carries_or_bare with ⟨members, rfl, carried⟩ | bare
  · rw [Json.withFilter_object carried]
    exact .document carried (Json.Members.agreeBut_insert members _ carried)
  · rw [Json.withFilter_bare bare]
    exact .list bare

theorem composeJson_eq (wrap : Option Connective) (base addition : Json) :
    composeJson wrap base addition = do
      let tree ← PredicateTree.read .string (filterIn base)
      let added ← PredicateTree.read .string (filterIn addition)
      return base.withFilter (PredicateTree.compose wrap tree added).toJson := by
  unfold composeJson
  refine bind_congr fun tree => bind_congr fun added => ?_
  cases base with
  | object members =>
    simp only [Json.withFilter]
    split <;> rfl
  | _ => rfl

theorem composeJson_eq_error_iff {fault : Error} :
    composeJson wrap base addition = .error fault ↔
      PredicateTree.read .string (filterIn base) = .error fault ∨
        (∃ tree, PredicateTree.read .string (filterIn base) = .ok tree) ∧
          PredicateTree.read .string (filterIn addition) = .error fault := by
  rw [composeJson_eq]
  cases PredicateTree.read .string (filterIn base) with
  | error first => simp [bind, Except.bind]
  | ok tree =>
    cases PredicateTree.read .string (filterIn addition) with
    | error second => simp [bind, Except.bind]
    | ok added => simp [bind, Except.bind, pure, Except.pure]

/-- The composition of two filters that were read is read back from its canonical form. -/
theorem read_compose_toJson (wrap : Option Connective)
    (described : PredicateTree.read .string base = .ok tree)
    (more : PredicateTree.read .string addition = .ok added) (hint : TypeHint) :
    PredicateTree.read hint (PredicateTree.compose wrap tree added).toJson =
      .ok (PredicateTree.compose wrap tree added) := by
  have string : TypeHint.string.IsCanonical := ⟨"String", by decide +kernel⟩
  have canonical {value : Json} {tree : PredicateTree}
      (described : PredicateTree.read .string value = .ok tree) :
      PredicateTree.Every Condition.IsCanonical tree :=
    PredicateTree.read_every (Predicate.describesOnly_canonical string) value tree described
  exact (PredicateTree.read_toJson_iff hint _).mpr
    (PredicateTree.every_isCanonical_compose wrap (canonical described) (canonical more))

end Composition

/-- Descriptions are composed as their filters are. The composition fails where one of the filters
is not read, the base first. Otherwise its filter is read, whatever type is the default, as the
composition of the two; it has the shape of the base, and of a document as addition nothing counts
but its filter. -/
theorem composeJson_composes (wrap : Option Connective) (base addition : Json) :
    (∀ fault, composeJson wrap base addition = .error fault ↔
      PredicateTree.read .string (filterIn base) = .error fault ∨
        (∃ tree, PredicateTree.read .string (filterIn base) = .ok tree) ∧
          PredicateTree.read .string (filterIn addition) = .error fault) ∧
    (∀ tree added, PredicateTree.read .string (filterIn base) = .ok tree →
      PredicateTree.read .string (filterIn addition) = .ok added →
      ∃ composed, composeJson wrap base addition = .ok composed ∧ base.ShapedAs composed ∧
        ∀ hint, PredicateTree.read hint (filterIn composed) =
          .ok (PredicateTree.compose wrap tree added)) ∧
    ∀ members filter, addition = .object members →
      Json.Members.get? members filterKey = some filter →
      composeJson wrap base addition = composeJson wrap base (.object [(filterKey, filter)]) := by
  refine ⟨fun fault => composeJson_eq_error_iff, fun tree added described more => ?_, ?_⟩
  · refine ⟨base.withFilter (PredicateTree.compose wrap tree added).toJson, ?_, ?_, fun hint => ?_⟩
    · rw [composeJson_eq, described, more]
      rfl
    · exact shapedAs_withFilter _
    · rw [PredicateTree.toJson, filterIn_withFilter]
      exact read_compose_toJson wrap described more hint
  · rintro members filter rfl carried
    have alone : filterIn (.object [(filterKey, filter)]) = filter :=
      filterIn_object List.lookup_cons_self
    rw [composeJson_eq, composeJson_eq, filterIn_object carried, alone]

namespace LimitedPeople

def filter : Json :=
  .object [("age", .object [("field", .string "p.age"), ("comp", .string ">"),
    ("value", .ofNat 17), ("type", .string "integer")])]

/-- A document with its filter between two other members. -/
def document : Json :=
  .object [("TABLES", .array [.string "people p"]), (filterKey, filter), ("LIMIT", .ofNat 5)]

/-- Another document, of which only the filter counts. -/
def addition : Json :=
  .object [("LIMIT", .ofNat 9), (filterKey, .string "p.name <> ''")]

def adult : Condition := ⟨"p.age", ">", some (.ofNat 17), .integer, .and⟩

def composed : PredicateTree :=
  [.leaf adult, .group .or [.raw "p.name <> ''" .and]]

end LimitedPeople

open LimitedPeople in
theorem composeJson_composes_limitedPeople :
    ∃ result, composeJson (some .or) document addition = .ok result ∧ document.ShapedAs result ∧
      PredicateTree.read .date (filterIn result) = .ok composed ∧
      composeJson (some .or) document addition =
        composeJson (some .or) document (.object [(filterKey, .string "p.name <> ''")]) := by
  have described : PredicateTree.read .string (filterIn document) = .ok [.leaf adult] := by
    decide +kernel
  have more : PredicateTree.read .string (filterIn addition) = .ok [.raw "p.name <> ''" .and] := by
    decide +kernel
  obtain ⟨_, succeeds, alone⟩ := composeJson_composes (some .or) document addition
  obtain ⟨result, done, shaped, read⟩ := succeeds _ _ described more
  exact ⟨result, done, shaped, read .date, alone _ _ rfl rfl⟩

end SelectCompiler
