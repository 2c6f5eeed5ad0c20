import SelectCompiler.Proofs.Predicate.Reading
import SelectCompiler.Proofs.Predicate.Revision
import SelectCompiler.Proofs.Text.Trimming

/-!
The canonical JSON of a filter. Reading it gives the filter with null values dropped and hints named
as the reader names them, unless some test holds a list or an object. So it gives the filter back
exactly when the hints of its tests are names as the reader leaves them and their values can be
bound, and every filter that was read is of this kind.
-/

namespace SelectCompiler

theorem Connective.ofToken_sql (connective : Connective) :
    Connective.ofToken connective.sql = .ok connective := by
  cases connective <;> decide +kernel

namespace TypeHint

/-- The hint is one that some name stands for. -/
def IsCanonical (hint : TypeHint) : Prop :=
  ∃ name, ofName name = hint

theorem ofName_name_of_builtIn : ∀ hint ∈ builtIn, ofName hint.name = hint := by
  decide +kernel

/-- Exactly the hints that some name stands for are read back from their own name. -/
theorem ofName_name_iff (hint : TypeHint) : ofName hint.name = hint ↔ hint.IsCanonical := by
  constructor
  · intro kept
    exact ⟨hint.name, kept⟩
  · rintro ⟨name, rfl⟩
    cases found : builtIn.find? fun hint => hint.name.toLower = (Text.trim name).toLower with
    | some known =>
      have chosen : ofName name = known := by simp [ofName, found]
      rw [chosen]
      exact ofName_name_of_builtIn known (List.mem_of_find?_eq_some found)
    | none =>
      have kept : ofName name = other (Text.trim name) := by simp [ofName, found]
      rw [kept, TypeHint.name, ofName, Text.trim_trim, found]
      rfl

end TypeHint

/-- What becomes of tests that are written and read: null is no value, and the type is the one that
its name stands for. -/
def Revision.reread : Revision where
  value given := if given = some .null then none else given
  hint named := .ofName named.name

/-- The value of the test is no list and no object. -/
def Condition.IsScalar (condition : Condition) : Prop :=
  ∀ value, condition.value = some value → value.isStructured = false

/-- The test can be written as JSON without loss. -/
structure Condition.IsCanonical (condition : Condition) : Prop where
  hint : condition.hint.IsCanonical
  value : ∀ value, condition.value = some value → value.isBindable = true

theorem Condition.isCanonical_iff {condition : Condition} :
    condition.IsCanonical ↔ condition.IsScalar ∧ condition.revise .reread = condition := by
  have bindable : (∀ value, condition.value = some value → value.isBindable = true) ↔
      condition.IsScalar ∧ Revision.reread.value condition.value = condition.value := by
    cases given : condition.value with
    | none => simp [IsScalar, Revision.reread, given]
    | some value =>
      cases value <;>
        simp [IsScalar, Revision.reread, given, Json.isBindable, Json.isStructured]
  rw [revise_eq_self_iff, ← and_assoc, ← bindable, Revision.reread,
    condition.hint.ofName_name_iff]
  exact ⟨fun canonical => ⟨canonical.value, canonical.hint⟩, fun parts => ⟨parts.2, parts.1⟩⟩

section Written

open Predicate

/-- The keys of written tests and raw texts. -/
def writtenKeys : List String := ["field", "comp", "value", "type", "conj", "sql"]

theorem groupWord_of_written {members : Json.Members}
    (written : ∀ member ∈ members, member.1 ∈ writtenKeys) :
    ∀ member ∈ members, groupWords.contains member.1 = false := by
  have plain : ∀ key ∈ writtenKeys, groupWords.contains key = false := by decide
  exact fun member present => plain member.1 (written member present)

theorem childrenKey_of_written {members : Json.Members}
    (written : ∀ member ∈ members, member.1 ∈ writtenKeys) :
    (members.any fun member => isChildrenKey member.1) = false := by
  have plain : ∀ key ∈ writtenKeys, isChildrenKey key = false := by decide +kernel
  rw [List.any_eq_false]
  intro member present
  rw [plain member.1 (written member present)]
  exact Bool.false_ne_true

variable (condition : Condition)

theorem Condition.toMembers_written : ∀ member ∈ condition.toMembers, member.1 ∈ writtenKeys := by
  intro member present
  cases given : condition.value <;> simp [toMembers, given] at present <;>
    rcases present with rfl | rfl | rfl | rfl | rfl <;> simp [writtenKeys]

@[simp] theorem Condition.get?_field_toMembers :
    Json.Members.get? condition.toMembers "field" = some (.string condition.field) := by
  simp [toMembers, Json.Members.get?]

@[simp] theorem Condition.get?_comp_toMembers :
    Json.Members.get? condition.toMembers "comp" = some (.string condition.comparator) := by
  simp [toMembers, Json.Members.get?, List.lookup_cons]

@[simp] theorem Condition.get?_value_toMembers :
    Json.Members.get? condition.toMembers "value" = condition.value := by
  cases given : condition.value <;> simp [toMembers, Json.Members.get?, List.lookup_cons, given]

@[simp] theorem Condition.get?_type_toMembers :
    Json.Members.get? condition.toMembers "type" = some (.string condition.hint.name) := by
  cases given : condition.value <;> simp [toMembers, Json.Members.get?, List.lookup_cons, given]

@[simp] theorem Condition.get?_conj_toMembers :
    Json.Members.get? condition.toMembers "conj" = some (.string condition.connective.sql) := by
  cases given : condition.value <;> simp [toMembers, Json.Members.get?, List.lookup_cons, given]

theorem Condition.ownConnective_toMembers :
    ownConnective condition.toMembers = .ok condition.connective := by
  simp only [ownConnective, firstOf, connectiveKeys, List.findSome?_cons, get?_conj_toMembers]
  exact Connective.ofToken_sql condition.connective

theorem Condition.ofMembers?_toMembers (hint : TypeHint) :
    Shape.ofMembers? hint condition.toMembers =
      some (do return .leaf (← ownCondition hint (.string condition.field) condition.toMembers
        condition.connective)) := by
  rw [Shape.ofMembers?_leaf (groupWord_of_written condition.toMembers_written)
      (childrenKey_of_written condition.toMembers_written) condition.get?_field_toMembers,
    condition.ownConnective_toMembers]
  rfl

theorem Condition.ownValue_toMembers_eq_ok_iff {value : Option Json} :
    ownValue condition.field condition.toMembers = .ok value ↔
      condition.IsScalar ∧ value = (condition.revise .reread).value := by
  rw [ownValue_eq_ok_iff, condition.get?_value_toMembers]
  cases given : condition.value with
  | none => simp [IsScalar, revise, Revision.reread, given]
  | some own =>
    cases own <;>
      simp [IsScalar, revise, Revision.reread, given, Json.isBindable, Json.isStructured]

/-- A written test is read back if it holds no list and no object. -/
theorem Condition.ownCondition_toMembers_eq_ok_iff (hint : TypeHint) {found : Condition} :
    ownCondition hint (.string condition.field) condition.toMembers condition.connective =
        .ok found ↔ condition.IsScalar ∧ found = condition.revise .reread := by
  have comparator : (firstOf comparatorKeys condition.toMembers).mapM (textAt "comp") =
      .ok (some condition.comparator) := by
    simp only [firstOf, comparatorKeys, List.findSome?_cons, get?_comp_toMembers]
    rfl
  have name : (firstOf hintKeys condition.toMembers).mapM (textAt "type") =
      .ok (some condition.hint.name) := by
    simp only [firstOf, hintKeys, List.findSome?_cons, get?_type_toMembers]
    rfl
  rw [ownCondition_eq_ok_iff, comparator, name]
  constructor
  · rintro ⟨field, connective, value, ⟨_, ⟨⟩, _, written⟩, _, ⟨⟩, kept⟩
    rw [← Json.string.inj field] at value
    obtain ⟨scalar, reread⟩ := condition.ownValue_toMembers_eq_ok_iff.mp value
    cases found
    exact ⟨scalar, by simp_all [revise, Revision.reread]⟩
  · rintro ⟨scalar, rfl⟩
    exact ⟨rfl, rfl, condition.ownValue_toMembers_eq_ok_iff.mpr ⟨scalar, rfl⟩,
      ⟨_, rfl, .inr rfl, rfl⟩, _, rfl, rfl⟩

end Written

namespace Predicate

variable (hint : TypeHint)

theorem readNode_toJson_leaf (condition : Condition) :
    readNode hint (leaf condition).toJson = leaf <$>
      ownCondition hint (.string condition.field) condition.toMembers condition.connective := by
  rw [toJson, readNode_shaped (condition.ofMembers?_toMembers hint)]
  cases ownCondition hint (.string condition.field) condition.toMembers condition.connective <;> rfl

theorem readNode_toJson_raw (sql : String) (connective : Connective) :
    readNode hint (raw sql connective).toJson = .ok (raw sql connective) := by
  have written : ∀ member ∈ [("sql", Json.string sql), ("conj", .string connective.sql)],
      member.1 ∈ writtenKeys := by
    simp [writtenKeys]
  have own : ownConnective [("sql", .string sql), ("conj", .string connective.sql)] =
      .ok connective := Connective.ofToken_sql connective
  rw [toJson, readNode_shaped (Shape.ofMembers?_raw (groupWord_of_written written)
    (childrenKey_of_written written) rfl rfl), own]
  rfl

theorem readNode_toJson_group (connective : Connective) (children : List Predicate) :
    readNode hint (group connective children).toJson =
      group connective <$> readItems hint (PredicateTree.toItems children) := by
  rw [toJson, readNode_conj_children _ (Connective.ofToken_sql connective)]

mutual
theorem readNode_toJson_eq_ok_iff : ∀ {node found : Predicate},
    readNode hint node.toJson = .ok found ↔
      node.Every Condition.IsScalar ∧ found = node.revise .reread
  | .leaf condition, found => by
    simp only [readNode_toJson_leaf, map_eq_ok_iff, every_leaf_iff,
      condition.ownCondition_toMembers_eq_ok_iff, revise]
    exact ⟨fun ⟨_, ⟨scalar, read⟩, same⟩ => ⟨scalar, read ▸ same⟩,
      fun ⟨scalar, same⟩ => ⟨_, ⟨scalar, rfl⟩, same⟩⟩
  | .raw sql connective, found => by
    rw [readNode_toJson_raw, ok_eq_ok_iff, revise]
    exact (and_iff_right (every_raw sql connective)).symm
  | .group connective children, found => by
    simp only [readNode_toJson_group, map_eq_ok_iff, every_group_iff, revise,
      readItems_toItems_eq_ok_iff]
    exact ⟨fun ⟨_, ⟨scalar, read⟩, same⟩ => ⟨scalar, read ▸ same⟩,
      fun ⟨scalar, same⟩ => ⟨_, ⟨scalar, rfl⟩, same⟩⟩

/-- Written predicates are read back, with their tests reread, if no test holds a list or an
object. -/
theorem readItems_toItems_eq_ok_iff : ∀ {nodes found : List Predicate},
    readItems hint (PredicateTree.toItems nodes) = .ok found ↔
      PredicateTree.Every Condition.IsScalar nodes ∧ found = PredicateTree.revise .reread nodes
  | [], found => by
    rw [PredicateTree.toItems, readItems, ok_eq_ok_iff, PredicateTree.revise]
    exact (and_iff_right PredicateTree.every_nil).symm
  | node :: rest, found => by
    simp only [PredicateTree.toItems, readItems, bind_eq_ok_iff, pure_eq_ok_iff,
      readNode_toJson_eq_ok_iff, readItems_toItems_eq_ok_iff, PredicateTree.every_cons_iff,
      PredicateTree.revise]
    constructor
    · rintro ⟨_, ⟨first, rfl⟩, _, ⟨others, rfl⟩, rfl⟩
      exact ⟨⟨first, others⟩, rfl⟩
    · rintro ⟨⟨first, others⟩, rfl⟩
      exact ⟨_, ⟨first, rfl⟩, _, ⟨others, rfl⟩, rfl⟩
end

theorem describesOnly_canonical {hint : TypeHint} (named : hint.IsCanonical) :
    DescribesOnly hint Condition.IsCanonical := by
  intro field members connective condition described
  obtain ⟨_, _, read, _, name, _, chosen⟩ := ownCondition_eq_ok_iff.mp described
  constructor
  · rw [chosen]
    cases name with
    | none => exact named
    | some name => exact ⟨name, rfl⟩
  · intro value given
    rcases ownValue_eq_ok_iff.mp read with ⟨_, missing⟩ | ⟨scalar, _, bindable, found⟩
    · rw [missing] at given
      contradiction
    · rw [found] at given
      cases given
      exact bindable

end Predicate

namespace PredicateTree

variable {first second : PredicateTree}

/-- What is read from the canonical JSON of a filter, if no test holds a list or an object. -/
theorem read_toJson_eq_ok_iff {tree found : PredicateTree} (hint : TypeHint) :
    PredicateTree.read hint tree.toJson = .ok found ↔
      PredicateTree.Every Condition.IsScalar tree ∧ found = PredicateTree.revise .reread tree := by
  rw [← Predicate.readItems_toItems_eq_ok_iff hint]
  simp only [toJson, PredicateTree.read, Predicate.readBody]

theorem read_toJson_iff (hint : TypeHint) (tree : PredicateTree) :
    PredicateTree.read hint tree.toJson = .ok tree ↔
      PredicateTree.Every Condition.IsCanonical tree := by
  rw [read_toJson_eq_ok_iff, eq_comm (a := tree), revise_eq_self_iff]
  simp only [PredicateTree.Every, Condition.isCanonical_iff, forall_and]

/-- Filters that can be written without loss are composed to one. -/
theorem every_isCanonical_compose (wrap : Option Connective)
    (base : PredicateTree.Every Condition.IsCanonical first)
    (addition : PredicateTree.Every Condition.IsCanonical second) :
    PredicateTree.Every Condition.IsCanonical (compose wrap first second) := by
  cases second with
  | nil => cases wrap <;> exact base
  | cons node rest =>
    cases wrap with
    | some connective =>
      exact every_append_iff.mpr ⟨base, every_cons_iff.mpr
        ⟨Predicate.every_group_iff.mpr addition, every_nil⟩⟩
    | none =>
      obtain ⟨head, tail⟩ := every_cons_iff.mp addition
      refine every_append_iff.mpr ⟨base, every_cons_iff.mpr ⟨?_, tail⟩⟩
      cases node with
      | leaf condition =>
        obtain ⟨hint, value⟩ := Predicate.every_leaf_iff.mp head
        exact Predicate.every_leaf_iff.mpr ⟨hint, value⟩
      | raw sql connective => exact Predicate.every_raw sql .and
      | group connective children =>
        exact Predicate.every_group_iff.mpr (Predicate.every_group_iff.mp head)

end PredicateTree

/-- A filter is read back from its canonical JSON, whatever type is the default, exactly when every
test in it has a hint that is some name's and a value that can be bound or none. A filter that was
read with such a hint as default is of this kind. -/
theorem PredicateTree.read_toJson_iff_canonical (tree : PredicateTree) :
    (∀ hint, PredicateTree.read hint tree.toJson = .ok tree ↔
        PredicateTree.Every Condition.IsCanonical tree) ∧
      ∀ hint value, hint.IsCanonical → PredicateTree.read hint value = .ok tree →
        PredicateTree.Every Condition.IsCanonical tree ∧
          ∀ other, PredicateTree.read other tree.toJson = .ok tree := by
  refine ⟨fun hint => read_toJson_iff hint tree, fun hint value named read => ?_⟩
  have canonical := read_every (Predicate.describesOnly_canonical named) value tree read
  exact ⟨canonical, fun other => (read_toJson_iff other tree).mpr canonical⟩

/-- A label map with a test, a group of two and a text. -/
def labelledDocument : Json :=
  .object
    [("0", .object [("field", .string "a"), ("value", .ofNat 1), ("type", .string " contact ")]),
      ("or", .array
        [.object [("field", .string "b"), ("comp", .string "IS NULL")],
          .object [("sub", .string "OR"),
            ("x", .object [("field", .string "c"), ("value", .bool true)])]]),
      ("1", .string "d <> 0")]

theorem read_toJson_labelledDocument :
    ∃ tree, PredicateTree.read .money labelledDocument = .ok tree ∧
      PredicateTree.read .date (PredicateTree.toJson tree) = .ok tree := by
  have named : TypeHint.IsCanonical .money := ⟨"Money", by decide +kernel⟩
  have read : PredicateTree.read .money labelledDocument = .ok
      [.leaf ⟨"a", "=", some (.ofNat 1), .other "contact", .and⟩,
        .group .or [.leaf ⟨"b", "IS NULL", none, .money, .and⟩,
          .group .or [.leaf ⟨"c", "=", some (.bool true), .money, .and⟩]],
        .raw "d <> 0" .and] := by decide +kernel
  exact ⟨_, read, ((PredicateTree.read_toJson_iff_canonical _).2 _ _ named read).2 .date⟩

end SelectCompiler
