import SelectCompiler.Proofs.Predicate.Agreement

/-!
Descriptions that are read alike, wherever a predicate or the members of a group can stand. Lists
and objects of alike descriptions are alike, and so every description is alike to itself under two
default types that the revision does not tell apart.
-/

namespace SelectCompiler.Predicate

/-- The two values are no different to the reader, each read under a default type of its own. -/
structure Alike (revision : Revision) (hint other : TypeHint) (first second : Json) : Prop where
  similar : first.Similar second
  node : Agree (Predicate.revise revision) (readNode hint first) (readNode other second)
  body : Agree (PredicateTree.revise revision) (readBody hint first) (readBody other second)

section Sequences

variable {revision : Revision} {hint other : TypeHint}

/-- An entry is read by its key, whatever stands under it. -/
theorem buildEntry_agree {key : String} {first second : Json}
    (held : revision.Relates (Alike revision hint other) key first second) :
    Agree (Predicate.revise revision)
      (buildEntry key first (fun _ => readBody hint first) fun _ => readNode hint first)
      (buildEntry key second (fun _ => readBody other second) fun _ => readNode other second) := by
  by_cases own : key = "value"
  · rw [own]
    exact .refused _ _
  · rw [Revision.relates_of_ne own] at held
    unfold buildEntry
    cases EntryRole.ofKey key with
    | leafOnly => exact .refused _ _
    | joined connective =>
      exact held.body.bind fun _ _ same => .returned (congrArg (Predicate.group connective) same)
    | label => exact held.node

theorem isWrapper_eq {key : String} {first second : Json}
    (held : revision.Relates (Alike revision hint other) key first second) :
    isWrapper key first = isWrapper key second := by
  by_cases own : key = "value"
  · rw [own]
    rfl
  · rw [Revision.relates_of_ne own] at held
    rw [isWrapper, held.similar.isStructured]
    rfl

theorem readItems_agree {first second : List Json}
    (items : List.Forall₂ (Alike revision hint other) first second) :
    Agree (PredicateTree.revise revision) (readItems hint first) (readItems other second) := by
  induction items with
  | nil => exact .returned rfl
  | cons head _ ih =>
    rw [readItems, readItems]
    exact cons_agree head.node ih

variable {first second : Json.Members}
  (members : Json.Members.Related (revision.Relates (Alike revision hint other)) first second)

include members

theorem readEntries_agree :
    Agree (PredicateTree.revise revision) (readEntries hint first) (readEntries other second) := by
  induction members with
  | nil => exact .returned rfl
  | @cons member member' _ _ head _ ih =>
    obtain ⟨key, item⟩ := member
    obtain ⟨key', item'⟩ := member'
    obtain ⟨rfl, held⟩ := head
    rw [readEntries, readEntries]
    exact cons_agree (buildEntry_agree held) ih

theorem readLabelled_agree :
    Agree (PredicateTree.revise revision) (readLabelled hint first)
      (readLabelled other second) := by
  induction members with
  | nil => exact .returned rfl
  | @cons member member' _ _ head _ ih =>
    obtain ⟨key, item⟩ := member
    obtain ⟨key', item'⟩ := member'
    obtain ⟨rfl, held⟩ := head
    rw [readLabelled, readLabelled]
    split
    · exact ih
    · exact cons_agree (buildEntry_agree held) ih

theorem readChildren_agree :
    Agree (PredicateTree.revise revision) (readChildren hint first)
      (readChildren other second) := by
  induction members with
  | nil => exact .returned rfl
  | @cons member member' _ _ head _ ih =>
    obtain ⟨key, item⟩ := member
    obtain ⟨key', item'⟩ := member'
    obtain ⟨rfl, held⟩ := head
    rw [readChildren, readChildren]
    split
    · rename_i children
      have plain : key ≠ "value" := by
        rintro rfl
        exact absurd children (by decide +kernel)
      rw [Revision.relates_of_ne plain] at held
      exact held.body
    · exact ih

end Sequences

namespace Alike

variable {revision : Revision} {hint other : TypeHint}

theorem array {first second : List Json}
    (items : List.Forall₂ (Alike revision hint other) first second) :
    Alike revision hint other (.array first) (.array second) where
  similar := .inr ⟨rfl, rfl⟩
  node := by
    match items with
    | .nil => exact .refused _ _
    | .cons head .nil =>
      rw [readNode, readNode]
      exact head.node
    | .cons _ (.cons _ _) => exact .refused _ _
  body := by
    rw [readBody, readBody]
    exact readItems_agree items

theorem relates {first second : Json} (alike : Alike revision hint other first second)
    (key : String) : revision.Relates (Alike revision hint other) key first second := by
  unfold Revision.Relates
  split
  · exact .inl alike.similar
  · exact alike

variable {first second : Json.Members} (blind : revision.hint hint = revision.hint other)
  (members : Json.Members.Related (revision.Relates (Alike revision hint other)) first second)

include members

theorem similar_members : Json.Members.Related (revision.Relates Json.Similar) first second := by
  refine members.imp fun member member' ⟨same, held⟩ => ⟨same, ?_⟩
  by_cases own : member.1 = "value"
  · rw [own, Revision.relates_value] at held ⊢
    exact held
  · rw [Revision.relates_of_ne own] at held ⊢
    exact held.similar

include blind

theorem node_object :
    Agree (Predicate.revise revision) (readNode hint (.object first))
      (readNode other (.object second)) := by
  have shape := Shape.ofMembers?_agree (similar_members members) blind
  cases one : Shape.ofMembers? hint first <;> cases another : Shape.ofMembers? other second <;>
    rw [one, another] at shape <;> cases shape
  · match members with
    | .nil => exact .refused _ _
    | .cons (a := (key, item)) (b := (key', item')) ⟨same, held⟩ .nil =>
      obtain rfl : key = key' := same
      rw [readNode_single one, readNode_single another, isWrapper_eq held]
      split
      · exact buildEntry_agree held
      · exact .refused _ _
    | .cons _ (.cons _ _) =>
      rw [readNode_unrecognized one (by simp), readNode_unrecognized another (by simp)]
      exact .refused _ _
  · rename_i agree
    rw [readNode_shaped one, readNode_shaped another]
    exact agree.bind fun _ _ same =>
      Shape.build_agree same (readLabelled_agree members) (readChildren_agree members)

theorem object : Alike revision hint other (.object first) (.object second) where
  similar := .inr ⟨rfl, rfl⟩
  node := node_object blind members
  body := by
    have shape := Shape.ofMembers?_agree (similar_members members) blind
    cases one : Shape.ofMembers? hint first <;> cases another : Shape.ofMembers? other second <;>
      rw [one, another] at shape <;> cases shape
    · rw [readBody_plain one, readBody_plain another]
      exact readEntries_agree members
    · rw [readBody_shaped one, readBody_shaped another]
      exact (node_object blind members).bind fun _ _ same => .returned <| by
        simp only [PredicateTree.revise, same]

end Alike

section Self

variable {revision : Revision} {hint other : TypeHint}

mutual
/-- A description is alike to itself, and so the reader refuses nothing but malformed
predicates. -/
theorem alike_self (blind : revision.hint hint = revision.hint other) : ∀ value : Json,
    Alike revision hint other value value
  | .null => ⟨.inl rfl, .refused _ _, .refused _ _⟩
  | .bool _ => ⟨.inl rfl, .refused _ _, .refused _ _⟩
  | .number _ => ⟨.inl rfl, .refused _ _, .refused _ _⟩
  | .string _ => ⟨.inl rfl, .returned rfl, .returned rfl⟩
  | .array items => .array (alike_items blind items)
  | .object members => .object blind (related_self blind members)

theorem alike_items (blind : revision.hint hint = revision.hint other) : ∀ items : List Json,
    List.Forall₂ (Alike revision hint other) items items
  | [] => .nil
  | item :: rest => .cons (alike_self blind item) (alike_items blind rest)

theorem related_self (blind : revision.hint hint = revision.hint other) :
    ∀ members : List (String × Json),
      Json.Members.Related (revision.Relates (Alike revision hint other)) members members
  | [] => .nil
  | (key, value) :: rest =>
    .cons ⟨rfl, (alike_self blind value).relates key⟩ (related_self blind rest)
end

end Self

end SelectCompiler.Predicate

namespace SelectCompiler

/-- Alike descriptions describe the same filter up to the revision, or none. -/
theorem PredicateTree.read_agree {revision : Revision} {hint other : TypeHint} {first second : Json}
    (alike : Predicate.Alike revision hint other first second) :
    Agree (PredicateTree.revise revision) (PredicateTree.read hint first)
      (PredicateTree.read other second) := by
  rcases alike.similar with rfl | ⟨structured, structuredToo⟩
  · cases first with
    | null => exact .returned rfl
    | bool _ => exact .refused _ _
    | number _ => exact .refused _ _
    | _ => exact alike.body
  · cases first <;> cases structured <;> cases second <;> cases structuredToo <;> exact alike.body

end SelectCompiler
