import SelectCompiler.Predicate.Reading
import SelectCompiler.Proofs.Outcome
import SelectCompiler.Proofs.Predicate.Leaves

/-!
What the reader makes of an object and of the parts of a test, and a principle for everything it
returns: a property of every test that an object describes is a property of every test of every
filter read.
-/

namespace SelectCompiler.Predicate

section Shapes

variable {hint : TypeHint} {members : Json.Members}

theorem Shape.ofMembers?_labelled {key : String} {value : Json}
    (last : members.reverse.find? (fun member => groupWords.contains member.1) =
      some (key, value)) :
    Shape.ofMembers? hint members = some (do
      return .labelled (← Connective.ofToken (← textAt key value))) := by
  simp only [Shape.ofMembers?, last]

variable (unworded : ∀ member ∈ members, groupWords.contains member.1 = false)

include unworded

theorem find?_groupWord_eq_none :
    members.reverse.find? (fun member => groupWords.contains member.1) = none := by
  rw [List.find?_eq_none]
  intro member present
  rw [unworded member (List.mem_reverse.mp present)]
  exact Bool.false_ne_true

theorem Shape.ofMembers?_children
    (children : (members.any fun member => isChildrenKey member.1) = true) :
    Shape.ofMembers? hint members = some (do return .children (← ownConnective members)) := by
  simp only [Shape.ofMembers?, find?_groupWord_eq_none unworded, children, ↓reduceIte]

variable (childless : (members.any fun member => isChildrenKey member.1) = false)

include childless

theorem Shape.ofMembers?_leaf {field : Json} (given : members.get? "field" = some field) :
    Shape.ofMembers? hint members = some (do
      return .leaf (← ownCondition hint field members (← ownConnective members))) := by
  simp only [Shape.ofMembers?, find?_groupWord_eq_none unworded, childless, Bool.false_eq_true,
    ↓reduceIte, given]

theorem Shape.ofMembers?_raw {sql : Json} (missing : members.get? "field" = none)
    (given : members.get? "sql" = some sql) :
    Shape.ofMembers? hint members = some (do
      let connective ← ownConnective members
      return .raw (← textAt "sql" sql) connective) := by
  simp only [Shape.ofMembers?, find?_groupWord_eq_none unworded, childless, Bool.false_eq_true,
    ↓reduceIte, missing, given]

end Shapes

section Objects

variable {hint : TypeHint} {members : Json.Members}

theorem readNode_shaped {shape : Except Error Shape}
    (found : Shape.ofMembers? hint members = some shape) :
    readNode hint (.object members) = shape >>= fun shape =>
      shape.build (fun _ => readLabelled hint members) (fun _ => readChildren hint members) := by
  rw [readNode.eq_def]
  simp only [found]

theorem readNode_single {key : String} {item : Json}
    (plain : Shape.ofMembers? hint [(key, item)] = none) :
    readNode hint (.object [(key, item)]) =
      if isWrapper key item then
        buildEntry key item (fun _ => readBody hint item) (fun _ => readNode hint item)
      else .error (.malformedPredicate (.fieldRequired (.object [(key, item)]))) := by
  rw [readNode.eq_def]
  simp only [plain]

theorem readNode_unrecognized (plain : Shape.ofMembers? hint members = none)
    (several : ∀ member, members ≠ [member]) :
    readNode hint (.object members) =
      .error (.malformedPredicate (.unrecognizedStructure (.object members))) := by
  rw [readNode.eq_def]
  simp only [plain]
  split
  · exact absurd rfl (several _)
  · rfl

/-- As the body of a group an object with a shape is one predicate. -/
theorem readBody_shaped {shape : Except Error Shape}
    (found : Shape.ofMembers? hint members = some shape) :
    readBody hint (.object members) = (do return [← readNode hint (.object members)]) := by
  rw [readBody.eq_def, readNode_shaped found]
  simp only [found, bind_assoc]

theorem readBody_plain (plain : Shape.ofMembers? hint members = none) :
    readBody hint (.object members) = readEntries hint members := by
  rw [readBody.eq_def]
  simp only [plain]

/-- The canonical object of a group, whatever token names its connective. -/
theorem Shape.ofMembers?_conj_children (token : String) (body : Json) :
    Shape.ofMembers? hint [("conj", .string token), ("children", body)] =
      some (do return .children (← Connective.ofToken token)) := by
  have unworded : ∀ member ∈ [("conj", Json.string token), ("children", body)],
      groupWords.contains member.1 = false := by
    simp [groupWords]
  have key : isChildrenKey "children" = true := by decide +kernel
  rw [Shape.ofMembers?_children unworded (by simp [key])]
  rfl

theorem readNode_conj_children {token : String} {connective : Connective} (items : List Json)
    (named : Connective.ofToken token = .ok connective) :
    readNode hint (.object [("conj", .string token), ("children", .array items)]) =
      .group connective <$> readItems hint items := by
  have conj : isChildrenKey "conj" = false := by decide +kernel
  have key : isChildrenKey "children" = true := by decide +kernel
  have body : readChildren hint [("conj", .string token), ("children", .array items)] =
      readItems hint items := by
    simp [readChildren, readBody, conj, key]
  rw [readNode_shaped (Shape.ofMembers?_conj_children token _), named]
  exact congrArg (Predicate.group connective <$> ·) body

end Objects

theorem textAt_eq_ok_iff {key text : String} {value : Json} :
    textAt key value = .ok text ↔ value = .string text := by
  cases value <;> simp [textAt]

theorem ownValue_eq_ok_iff {field : String} {members : Json.Members} {value : Option Json} :
    ownValue field members = .ok value ↔
      ((members.get? "value" = none ∨ members.get? "value" = some .null) ∧ value = none) ∨
        ∃ scalar, members.get? "value" = some scalar ∧ scalar.isBindable = true ∧
          value = some scalar := by
  unfold ownValue
  cases given : members.get? "value" with
  | none => simpa using eq_comm
  | some found =>
    cases found <;> simp [Json.isStructured, Json.isBindable]
    all_goals exact eq_comm

/-- What an object with a field has to hold to describe this test. -/
theorem ownCondition_eq_ok_iff {hint : TypeHint} {field : Json} {members : Json.Members}
    {connective : Connective} {condition : Condition} :
    ownCondition hint field members connective = .ok condition ↔
      field = .string condition.field ∧ condition.connective = connective ∧
        ownValue condition.field members = .ok condition.value ∧
        (∃ comparator, (firstOf comparatorKeys members).mapM (textAt "comp") = .ok comparator ∧
          (condition.value.isSome = true ∨ comparator.isSome = true) ∧
          condition.comparator = comparator.getD "=") ∧
        ∃ name, (firstOf hintKeys members).mapM (textAt "type") = .ok name ∧
          condition.hint = (name.map TypeHint.ofName).getD hint := by
  simp only [ownCondition, bind_eq_ok_iff, textAt_eq_ok_iff]
  constructor
  · rintro ⟨text, rfl, comparator, named, value, read, rest⟩
    by_cases lacking : (value.isNone && comparator.isNone) = true
    · rw [if_pos lacking] at rest
      contradiction
    · rw [if_neg lacking, bind_eq_ok_iff] at rest
      obtain ⟨name, typed, built⟩ := rest
      rw [pure_eq_ok_iff.mp built]
      refine ⟨rfl, rfl, read, ⟨comparator, named, ?_, rfl⟩, name, typed, rfl⟩
      cases value <;> cases comparator <;> simp_all
  · rintro ⟨rfl, rfl, read, ⟨comparator, named, present, written⟩, name, typed, chosen⟩
    have complete : ¬(condition.value.isNone && comparator.isNone) = true := by
      rw [Bool.and_eq_true, Option.isNone_iff_eq_none, Option.isNone_iff_eq_none]
      rintro ⟨valueless, bare⟩
      simp [valueless, bare] at present
    refine ⟨condition.field, rfl, comparator, named, condition.value, read, ?_⟩
    rw [if_neg complete, bind_eq_ok_iff]
    exact ⟨name, typed, by rw [← written, ← chosen]; rfl⟩

section Every

variable {property : Condition → Prop} {hint : TypeHint}

/-- The test that a shape is, if it is one, has the property. -/
def Shape.Satisfies (property : Condition → Prop) : Shape → Prop
  | .leaf condition => property condition
  | _ => True

theorem Shape.build_every {shape : Shape} {labelled children : Unit → Except Error PredicateTree}
    (own : shape.Satisfies property) (entries : Yields (PredicateTree.Every property) (labelled ()))
    (members : Yields (PredicateTree.Every property) (children ())) :
    Yields (Every property) (shape.build labelled children) := by
  cases shape with
  | labelled connective => exact entries.bind fun _ every => .ok (every_group_iff.mpr every)
  | children connective => exact members.bind fun _ every => .ok (every_group_iff.mpr every)
  | leaf condition => exact .ok (every_leaf_iff.mpr own)
  | raw sql connective => exact .ok (every_raw sql connective)

theorem buildEntry_every {key : String} {item : Json} {body : Unit → Except Error PredicateTree}
    {node : Unit → Except Error Predicate} (group : Yields (PredicateTree.Every property) (body ()))
    (single : Yields (Every property) (node ())) :
    Yields (Every property) (buildEntry key item body node) := by
  unfold buildEntry
  split
  · exact .error _
  · exact group.bind fun _ every => .ok (every_group_iff.mpr every)
  · exact single

/-- Every test that an object describes has the property. -/
def DescribesOnly (hint : TypeHint) (property : Condition → Prop) : Prop :=
  ∀ field members connective, Yields property (ownCondition hint field members connective)

theorem Shape.ofMembers?_satisfies (own : DescribesOnly hint property) {members : Json.Members}
    {shape : Except Error Shape} (found : Shape.ofMembers? hint members = some shape) :
    Yields (Shape.Satisfies property) shape := by
  unfold Shape.ofMembers? at found
  split at found
  · cases found
    exact (Yields.any _).bind fun _ _ => (Yields.any _).bind fun _ _ => .ok trivial
  · split at found
    · cases found
      exact (Yields.any _).bind fun _ _ => .ok trivial
    · split at found
      · cases found
        exact (Yields.any _).bind fun connective _ =>
          (own _ _ connective).bind fun _ holds => .ok holds
      · cases found
        exact (Yields.any _).bind fun _ _ => (Yields.any _).bind fun _ _ => .ok trivial
      · contradiction

theorem readNode_shaped_every (own : DescribesOnly hint property) {members : Json.Members}
    {shape : Except Error Shape} (found : Shape.ofMembers? hint members = some shape)
    (entries : Yields (PredicateTree.Every property) (readLabelled hint members))
    (children : Yields (PredicateTree.Every property) (readChildren hint members)) :
    Yields (Every property) (readNode hint (.object members)) := by
  rw [readNode_shaped found]
  exact (Shape.ofMembers?_satisfies own found).bind fun _ satisfies =>
    Shape.build_every satisfies entries children

mutual
theorem readNode_every (own : DescribesOnly hint property) : ∀ value : Json,
    Yields (Every property) (readNode hint value)
  | .null => .error _
  | .bool _ => .error _
  | .number _ => .error _
  | .string sql => .ok (every_raw sql .and)
  | .array [] => .error _
  | .array [item] => by
    rw [readNode]
    exact readNode_every own item
  | .array (_ :: _ :: _) => .error _
  | .object members => by
    cases found : Shape.ofMembers? hint members with
    | some shape =>
      exact readNode_shaped_every own found (readLabelled_every own members)
        (readChildren_every own members)
    | none =>
      match members with
      | [(key, item)] =>
        rw [readNode_single found]
        split
        · exact buildEntry_every (readBody_every own item) (readNode_every own item)
        · exact .error _
      | [] =>
        rw [readNode_unrecognized found (by simp)]
        exact .error _
      | _ :: _ :: _ =>
        rw [readNode_unrecognized found (by simp)]
        exact .error _

theorem readBody_every (own : DescribesOnly hint property) : ∀ value : Json,
    Yields (PredicateTree.Every property) (readBody hint value)
  | .null => .error _
  | .bool _ => .error _
  | .number _ => .error _
  | .string sql => .ok (by simp)
  | .array items => by
    rw [readBody]
    exact readItems_every own items
  | .object members => by
    cases found : Shape.ofMembers? hint members with
    | some shape =>
      rw [readBody_shaped found]
      exact (readNode_shaped_every own found (readLabelled_every own members)
        (readChildren_every own members)).bind fun _ every => .ok (by simpa using every)
    | none =>
      rw [readBody_plain found]
      exact readEntries_every own members

theorem readItems_every (own : DescribesOnly hint property) : ∀ items : List Json,
    Yields (PredicateTree.Every property) (readItems hint items)
  | [] => .ok (by simp)
  | item :: rest => by
    rw [readItems]
    exact (readNode_every own item).bind fun _ first =>
      (readItems_every own rest).bind fun _ others =>
        .ok (PredicateTree.every_cons_iff.mpr ⟨first, others⟩)

theorem readEntries_every (own : DescribesOnly hint property) : ∀ entries : List (String × Json),
    Yields (PredicateTree.Every property) (readEntries hint entries)
  | [] => .ok (by simp)
  | (key, item) :: rest => by
    rw [readEntries]
    exact (buildEntry_every (readBody_every own item) (readNode_every own item)).bind fun _ first =>
      (readEntries_every own rest).bind fun _ others =>
        .ok (PredicateTree.every_cons_iff.mpr ⟨first, others⟩)

theorem readLabelled_every (own : DescribesOnly hint property) : ∀ entries : List (String × Json),
    Yields (PredicateTree.Every property) (readLabelled hint entries)
  | [] => .ok (by simp)
  | (key, item) :: rest => by
    rw [readLabelled]
    split
    · exact readLabelled_every own rest
    · have entry : Yields (Every property) (buildEntry key item (fun _ => readBody hint item)
          (fun _ => readNode hint item)) :=
        buildEntry_every (readBody_every own item) (readNode_every own item)
      exact entry.bind fun _ first =>
        (readLabelled_every own rest).bind fun _ others =>
          .ok (PredicateTree.every_cons_iff.mpr ⟨first, others⟩)

theorem readChildren_every (own : DescribesOnly hint property) : ∀ entries : List (String × Json),
    Yields (PredicateTree.Every property) (readChildren hint entries)
  | [] => .ok (by simp)
  | (key, item) :: rest => by
    rw [readChildren]
    split
    · exact readBody_every own item
    · exact readChildren_every own rest
end

end Every

end SelectCompiler.Predicate

namespace SelectCompiler

theorem PredicateTree.read_every {property : Condition → Prop} {hint : TypeHint}
    (own : Predicate.DescribesOnly hint property) (value : Json) :
    Yields (PredicateTree.Every property) (PredicateTree.read hint value) := by
  unfold PredicateTree.read
  split
  · exact .ok (by simp)
  · exact .error _
  · exact .error _
  · exact Predicate.readBody_every own value

end SelectCompiler
