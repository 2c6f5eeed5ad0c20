import SelectCompiler.Proofs.Predicate.Outline

/-!
The objects of a document. Every test of a filter is described by one of the objects of the document
that it was read from.
-/

namespace SelectCompiler

open Predicate

mutual
/-- The objects of a document, each before what it holds. -/
def Json.objects : Json → List Json.Members
  | .array items => Json.itemObjects items
  | .object members => members :: Json.entryObjects members
  | _ => []

def Json.itemObjects : List Json → List Json.Members
  | [] => []
  | item :: rest => item.objects ++ Json.itemObjects rest

def Json.entryObjects : List (String × Json) → List Json.Members
  | [] => []
  | (_, item) :: rest => item.objects ++ Json.entryObjects rest
end

variable {hint : TypeHint} {test : Condition}

theorem test_not_mem_ownGroup (members : Json.Members) : .ok (.test test) ∉ ownGroup members := by
  intro member
  obtain ⟨word, _, group⟩ := Option.map_eq_some_iff.mp (Option.mem_toList.mp member)
  obtain ⟨_, _, impossible⟩ := map_eq_ok_iff.mp group
  cases impossible

/-- Of the parts of an entry only the first can be the test of its object. -/
theorem Place.of_test_mem_parts {own : Except Error Condition} {held : List (Except Error Part)}
    {place : Place} (member : .ok (.test test) ∈ place.parts own held) :
    own = .ok test ∨ .ok (.test test) ∈ held := by
  cases place with
  | setting => cases member
  | test =>
    obtain ⟨_, described, same⟩ := map_eq_ok_iff.mp (List.mem_singleton.mp member).symm
    exact .inl (Part.test.inj same ▸ described)
  | group connective =>
    refine .inr ((List.mem_cons.mp member).resolve_left fun group => ?_)
    obtain ⟨_, _, impossible⟩ := map_eq_ok_iff.mp group.symm
    cases impossible
  | predicate => exact .inr member

mutual
/-- A test that a document asks for is described by one of its objects. -/
theorem Json.exists_object_of_mem_parts : ∀ value : Json, .ok (.test test) ∈ value.parts hint →
    ∃ members ∈ value.objects, ownTest hint members = .ok test
  | .null, member => by simp [Json.parts] at member
  | .bool _, member => by simp [Json.parts] at member
  | .number _, member => by simp [Json.parts] at member
  | .string _, member => by simp [Json.parts] at member
  | .array items, member => by
    rw [Json.parts] at member
    exact Json.exists_object_of_mem_itemParts items member
  | .object members, member => by
    rw [Json.parts] at member
    obtain own | ⟨inner, inside, described⟩ := Json.exists_object_of_mem_entryParts members
      ((List.mem_append.mp member).resolve_left (test_not_mem_ownGroup members))
    · exact ⟨members, List.mem_cons_self, own⟩
    · exact ⟨inner, List.mem_cons_of_mem _ inside, described⟩

theorem Json.exists_object_of_mem_itemParts : ∀ items : List Json,
    .ok (.test test) ∈ Json.itemParts hint items →
    ∃ members ∈ Json.itemObjects items, ownTest hint members = .ok test
  | [], member => by simp [Json.itemParts] at member
  | item :: rest, member => by
    rw [Json.itemParts] at member
    rw [Json.itemObjects]
    obtain first | later := List.mem_append.mp member
    · obtain ⟨inner, inside, described⟩ := item.exists_object_of_mem_parts first
      exact ⟨inner, List.mem_append_left _ inside, described⟩
    · obtain ⟨inner, inside, described⟩ := Json.exists_object_of_mem_itemParts rest later
      exact ⟨inner, List.mem_append_right _ inside, described⟩

theorem Json.exists_object_of_mem_entryParts {members : Json.Members} :
    ∀ entries : List (String × Json), .ok (.test test) ∈ Json.entryParts hint members entries →
      ownTest hint members = .ok test ∨
        ∃ inner ∈ Json.entryObjects entries, ownTest hint inner = .ok test
  | [], member => by simp [Json.entryParts] at member
  | (key, item) :: rest, member => by
    rw [Json.entryParts] at member
    rw [Json.entryObjects]
    obtain here | later := List.mem_append.mp member
    · refine (Place.of_test_mem_parts here).imp_right fun held => ?_
      obtain ⟨inner, inside, described⟩ := item.exists_object_of_mem_parts held
      exact ⟨inner, List.mem_append_left _ inside, described⟩
    · exact (Json.exists_object_of_mem_entryParts rest later).imp_right
        fun ⟨inner, inside, described⟩ => ⟨inner, List.mem_append_right _ inside, described⟩
end

/-- Every test of a filter is described by an object of its document. -/
theorem PredicateTree.exists_object_of_read {value : Json} {tree : PredicateTree}
    (read : PredicateTree.read hint value = .ok tree) (leaf : test ∈ PredicateTree.leaves tree) :
    ∃ members ∈ value.objects, ownTest hint members = .ok test := by
  rw [← PredicateTree.filterMap_outline, List.mem_filterMap] at leaf
  obtain ⟨part, listed, isTest⟩ := leaf
  cases part with
  | group _ => cases isTest
  | test condition =>
    obtain rfl := Option.some.inj isTest
    exact value.exists_object_of_mem_parts
      ((PredicateTree.read_outlines tree read).sublist.subset (List.mem_map_of_mem listed))

end SelectCompiler
