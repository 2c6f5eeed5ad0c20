import SelectCompiler.Proofs.Predicate.Parts

/-!
What a filter keeps of its document. A filter that is read has the tests and groups that its
document asks for in the order of the document, and it lacks some exactly if one of the objects asks
for more than one thing.
-/

namespace SelectCompiler

open Predicate

namespace Predicate

variable {hint : TypeHint} {members : Json.Members} {key : String} {item : Json}

/-- The words that describe a group ask for nothing in it. -/
theorem Place.ofKey_groupSetting (opened : isClosed members = false)
    (setting : isGroupSetting key = true) : Place.ofKey members key = .setting := by
  rw [ofKey, opened]
  rcases Bool.or_eq_true_iff.mp setting with word | connective
  · simp only [Bool.false_eq_true, if_false, word, if_true]
  · have role : EntryRole.ofKey key = .leafOnly := by
      rw [EntryRole.ofKey, if_pos (.inr (.inr (.inr connective)))]
    rw [role]
    simp

/-- In an object that is read entry by entry every entry that is read is accounted for. -/
theorem buildEntry_outlines (opened : isClosed members = false)
    (unworded : groupWords.contains key = false) {body : Unit → Except Error PredicateTree}
    {node : Unit → Except Error Predicate}
    (group : Yields (fun tree => item.Outlines hint (PredicateTree.outline tree)) (body ()))
    (single : Yields (fun node => item.Outlines hint node.outline) (node ())) :
    Yields (fun node => Json.OutlinesEntry hint members key item node.outline)
      (buildEntry key item body node) := by
  unfold Json.OutlinesEntry
  rw [buildEntry, Place.ofKey, opened, unworded]
  cases EntryRole.ofKey key with
  | leafOnly => exact .error _
  | joined connective => exact group.bind fun _ accounts => .ok (accounts.group connective)
  | label => exact single

section Shapes

theorem unworded_of_find?_eq_none
    (none : members.reverse.find? (fun member => groupWords.contains member.1) = none) :
    ∀ member ∈ members, groupWords.contains member.1 = false := by
  intro member present
  exact Bool.eq_false_iff.mpr (List.find?_eq_none.mp none member (List.mem_reverse.mpr present))

theorem isClosed_eq_false_of_word {word : String × Json}
    (last : members.reverse.find? (fun member => groupWords.contains member.1) = some word) :
    isClosed members = false := by
  rw [Bool.eq_false_iff]
  intro closed
  rw [find?_groupWord_eq_none (isClosed_eq_true_iff.mp closed).1] at last
  contradiction

theorem readNode_worded_outlines {word : String × Json}
    (last : members.reverse.find? (fun member => groupWords.contains member.1) = some word)
    (entries : Yields
      (fun tree => Json.OutlinesEntries hint members members (PredicateTree.outline tree))
      (readLabelled hint members)) :
    Yields (fun node => (Json.object members).Outlines hint node.outline)
      (readNode hint (.object members)) := by
  intro node returned
  rw [readNode_shaped (Shape.ofMembers?_labelled last)] at returned
  obtain ⟨shape, chosen, built⟩ := bind_eq_ok_iff.mp returned
  obtain ⟨text, written, chosen⟩ := bind_eq_ok_iff.mp chosen
  obtain ⟨connective, named, chosen⟩ := bind_eq_ok_iff.mp chosen
  obtain rfl := pure_eq_ok_iff.mp chosen
  obtain ⟨tree, read, built⟩ := bind_eq_ok_iff.mp built
  obtain rfl := pure_eq_ok_iff.mp built
  have own : ownGroup members = [.ok (.group connective)] := by
    rw [ownGroup, last, Option.map_some, written]
    change [Part.group <$> Connective.ofToken text] = _
    rw [named]
    rfl
  rw [Json.Outlines, Json.parts, own, Json.unmixed, isClosed_eq_false_of_word last]
  exact (entries tree read).group connective

theorem isSubject_eq_false {member : String × Json}
    (childless : (members.any fun member => isChildrenKey member.1) = false)
    (missing : members.get? "field" = none) (present : member ∈ members) :
    isSubject member.1 = false := by
  have fieldless := List.lookup_eq_none_iff.mp missing member present
  have plain := List.any_eq_false.mp childless member present
  rw [isSubject, Bool.eq_false_iff.mpr plain, Bool.false_or, BEq.comm]
  simpa using fieldless

variable (unworded : ∀ member ∈ members, groupWords.contains member.1 = false)

include unworded

theorem readNode_children_outlines
    (given : (members.any fun member => isChildrenKey member.1) = true)
    (children : Yields (fun tree => ∃ before key item after,
      members = before ++ (key, item) :: after ∧ isChildrenKey key = true ∧
        item.Outlines hint (PredicateTree.outline tree)) (readChildren hint members)) :
    Yields (fun node => (Json.object members).Outlines hint node.outline)
      (readNode hint (.object members)) := by
  intro node returned
  rw [readNode_shaped (Shape.ofMembers?_children unworded given)] at returned
  obtain ⟨shape, chosen, built⟩ := bind_eq_ok_iff.mp returned
  obtain ⟨connective, named, chosen⟩ := bind_eq_ok_iff.mp chosen
  obtain rfl := pure_eq_ok_iff.mp chosen
  obtain ⟨tree, read, built⟩ := bind_eq_ok_iff.mp built
  obtain rfl := pure_eq_ok_iff.mp built
  obtain ⟨before, key, item, after, split, isKey, accounts⟩ := children tree read
  have subject : isSubject key = true := by rw [isSubject, isKey, Bool.true_or]
  have closed : isClosed members = true :=
    isClosed_eq_true_iff.mpr ⟨unworded, (key, item), by simp [split], .inl subject⟩
  refine outlines_of_entry closed split subject ?_
  rw [Json.OutlinesEntry, Place.ofKey_children closed isKey, named]
  exact accounts.group connective

variable (childless : (members.any fun member => isChildrenKey member.1) = false)

include childless

theorem readNode_leaf_outlines {field : Json} (given : members.get? "field" = some field) :
    Yields (fun node => (Json.object members).Outlines hint node.outline)
      (readNode hint (.object members)) := by
  intro node returned
  rw [readNode_shaped (Shape.ofMembers?_leaf unworded childless given)] at returned
  obtain ⟨shape, chosen, built⟩ := bind_eq_ok_iff.mp returned
  obtain ⟨connective, named, chosen⟩ := bind_eq_ok_iff.mp chosen
  obtain ⟨condition, described, chosen⟩ := bind_eq_ok_iff.mp chosen
  obtain rfl := pure_eq_ok_iff.mp chosen
  obtain rfl := pure_eq_ok_iff.mp built
  have own : ownTest hint members = .ok condition := by
    rw [ownTest, given]
    exact bind_eq_ok_iff.mpr ⟨connective, named, described⟩
  obtain ⟨before, after, split, _⟩ := List.lookup_eq_some_iff.mp given
  have subject : isSubject "field" = true := by rw [isSubject, beq_self_eq_true, Bool.or_true]
  have closed : isClosed members = true :=
    isClosed_eq_true_iff.mpr ⟨unworded, ("field", field), by simp [split], .inl subject⟩
  refine outlines_of_entry closed split subject ?_
  rw [Json.OutlinesEntry, Place.ofKey_field closed, own]
  exact .exact [.test condition]

theorem readNode_raw_outlines {sql : Json} (missing : members.get? "field" = none)
    (given : members.get? "sql" = some sql) :
    Yields (fun node => (Json.object members).Outlines hint node.outline)
      (readNode hint (.object members)) := by
  intro node returned
  rw [readNode_shaped (Shape.ofMembers?_raw unworded childless missing given)] at returned
  obtain ⟨shape, chosen, built⟩ := bind_eq_ok_iff.mp returned
  obtain ⟨connective, named, chosen⟩ := bind_eq_ok_iff.mp chosen
  obtain ⟨text, written, chosen⟩ := bind_eq_ok_iff.mp chosen
  obtain rfl := pure_eq_ok_iff.mp chosen
  obtain rfl := pure_eq_ok_iff.mp built
  obtain ⟨before, after, split, _⟩ := List.lookup_eq_some_iff.mp given
  have closed : isClosed members = true :=
    isClosed_eq_true_iff.mpr ⟨unworded, ("sql", sql), by simp [split], .inr rfl⟩
  exact outlines_of_raw closed fun _ present => isSubject_eq_false childless missing present

end Shapes

/-- An object of any shape is accounted for if the entries that it is read by are. -/
theorem readNode_shaped_outlines {shape : Except Error Shape}
    (found : Shape.ofMembers? hint members = some shape)
    (entries : isClosed members = false →
      Yields (fun tree => Json.OutlinesEntries hint members members (PredicateTree.outline tree))
        (readLabelled hint members))
    (children : (members.any fun member => isChildrenKey member.1) = true →
      Yields (fun tree => ∃ before key item after,
        members = before ++ (key, item) :: after ∧ isChildrenKey key = true ∧
          item.Outlines hint (PredicateTree.outline tree)) (readChildren hint members)) :
    Yields (fun node => (Json.object members).Outlines hint node.outline)
      (readNode hint (.object members)) := by
  cases last : members.reverse.find? fun member => groupWords.contains member.1 with
  | some member =>
    have opened : isClosed members = false := isClosed_eq_false_of_word last
    exact readNode_worded_outlines last (entries opened)
  | none =>
    have unworded := unworded_of_find?_eq_none last
    by_cases given : (members.any fun member => isChildrenKey member.1) = true
    · exact readNode_children_outlines unworded given (children given)
    · have childless := Bool.eq_false_iff.mpr given
      cases field : members.get? "field" with
      | some value => exact readNode_leaf_outlines unworded childless field
      | none =>
        cases sql : members.get? "sql" with
        | some value => exact readNode_raw_outlines unworded childless field sql
        | none =>
          rw [Shape.ofMembers?, last, field, sql] at found
          simp only [given, Bool.false_eq_true, if_false] at found
          contradiction

theorem absent_of_plain (plain : Shape.ofMembers? hint members = none) :
    members.reverse.find? (fun member => groupWords.contains member.1) = none ∧
      (members.any fun member => isChildrenKey member.1) = false ∧
      members.get? "field" = none ∧ members.get? "sql" = none := by
  unfold Shape.ofMembers? at plain
  split at plain
  · contradiction
  · rename_i wordless
    split at plain
    · contradiction
    · rename_i childless
      split at plain
      · contradiction
      · contradiction
      · rename_i fieldless textless
        exact ⟨wordless, Bool.eq_false_iff.mpr childless, fieldless, textless⟩

/-- An object without a shape is read entry by entry. -/
theorem opened_of_plain (plain : Shape.ofMembers? hint members = none) :
    isClosed members = false ∧ ∀ member ∈ members, groupWords.contains member.1 = false := by
  obtain ⟨wordless, childless, fieldless, textless⟩ := absent_of_plain plain
  refine ⟨?_, unworded_of_find?_eq_none wordless⟩
  rw [Bool.eq_false_iff]
  intro closed
  obtain ⟨_, member, present, subject | text⟩ := isClosed_eq_true_iff.mp closed
  · rw [isSubject_eq_false childless fieldless present] at subject
    contradiction
  · have other := List.lookup_eq_none_iff.mp textless member present
    rw [text] at other
    contradiction

-- The readers follow the document, and so does this: one case for each kind of value, and for an
-- object with a shape the entry or the entries by which it is read.
mutual
theorem readNode_outlines : ∀ value : Json,
    Yields (fun node => value.Outlines hint node.outline) (readNode hint value)
  | .null => .error _
  | .bool _ => .error _
  | .number _ => .error _
  | .string _ => .ok (.exact [])
  | .array [] => .error _
  | .array [item] => by
    rw [readNode]
    intro node returned
    have alone := (readNode_outlines item node returned).append (.exact [])
    rwa [List.append_nil] at alone
  | .array (_ :: _ :: _) => .error _
  | .object members => by
    cases found : Shape.ofMembers? hint members with
    | some shape =>
      exact readNode_shaped_outlines found (fun opened => readLabelled_outlines opened members)
        (readChildren_outlines members)
    | none =>
      obtain ⟨opened, unworded⟩ := opened_of_plain found
      match members with
      | [(key, item)] =>
        rw [readNode_single found]
        split
        · have entry : Yields
              (fun node => Json.OutlinesEntry hint [(key, item)] key item node.outline)
              (buildEntry key item (fun _ => readBody hint item) fun _ => readNode hint item) :=
            buildEntry_outlines opened (unworded (key, item) List.mem_cons_self)
              (readBody_outlines item) (readNode_outlines item)
          intro node returned
          have alone := (entry node returned).append (.exact [])
          rw [List.append_nil] at alone
          rw [Json.Outlines, Json.parts, ownGroup_of_unworded unworded, Json.unmixed, opened]
          exact alone
        · exact .error _
      | [] =>
        rw [readNode_unrecognized found (by simp)]
        exact .error _
      | _ :: _ :: _ =>
        rw [readNode_unrecognized found (by simp)]
        exact .error _

theorem readBody_outlines : ∀ value : Json,
    Yields (fun tree => value.Outlines hint (PredicateTree.outline tree)) (readBody hint value)
  | .null => .error _
  | .bool _ => .error _
  | .number _ => .error _
  | .string _ => .ok (.exact [])
  | .array items => by
    rw [readBody]
    exact readItems_outlines items
  | .object members => by
    cases found : Shape.ofMembers? hint members with
    | some shape =>
      rw [readBody_shaped found]
      have node := readNode_shaped_outlines found
        (fun opened => readLabelled_outlines opened members) (readChildren_outlines members)
      refine node.bind fun node accounts => .ok ?_
      rw [PredicateTree.outline, PredicateTree.outline, List.append_nil]
      exact accounts
    | none =>
      obtain ⟨opened, unworded⟩ := opened_of_plain found
      rw [readBody_plain found]
      intro tree returned
      rw [Json.Outlines, Json.parts, ownGroup_of_unworded unworded, Json.unmixed, opened]
      exact readEntries_outlines opened members unworded tree returned

theorem readItems_outlines : ∀ items : List Json,
    Yields (fun tree => Accounts (Json.itemsUnmixed items) (Json.itemParts hint items)
      (PredicateTree.outline tree)) (readItems hint items)
  | [] => .ok (.exact [])
  | item :: rest => by
    rw [readItems]
    exact (readNode_outlines item).bind fun _ first =>
      (readItems_outlines rest).bind fun _ others => .ok (first.append others)

theorem readEntries_outlines {members : Json.Members} (opened : isClosed members = false) :
    ∀ entries : List (String × Json),
      (∀ entry ∈ entries, groupWords.contains entry.1 = false) →
      Yields (fun tree => Json.OutlinesEntries hint members entries (PredicateTree.outline tree))
        (readEntries hint entries)
  | [], _ => .ok (.exact [])
  | (key, item) :: rest, unworded => by
    rw [readEntries]
    obtain ⟨plain, others⟩ := List.forall_mem_cons.mp unworded
    exact (buildEntry_outlines opened plain (readBody_outlines item) (readNode_outlines item)).bind
      fun _ first => (readEntries_outlines opened rest others).bind fun _ second =>
        .ok (first.append second)

theorem readLabelled_outlines {members : Json.Members} (opened : isClosed members = false) :
    ∀ entries : List (String × Json),
      Yields (fun tree => Json.OutlinesEntries hint members entries (PredicateTree.outline tree))
        (readLabelled hint entries)
  | [] => .ok (.exact [])
  | (key, item) :: rest => by
    rw [readLabelled]
    split
    · rename_i setting
      intro tree returned
      have skipped := (Accounts.exact []).append (readLabelled_outlines opened rest tree returned)
      rw [Json.OutlinesEntries, Json.entryParts, Json.entriesUnmixed,
        Place.ofKey_groupSetting opened setting]
      exact skipped
    · rename_i unset
      have plain : groupWords.contains key = false := by
        rw [isGroupSetting, Bool.or_eq_true, not_or] at unset
        exact Bool.eq_false_iff.mpr unset.1
      exact (buildEntry_outlines opened plain (readBody_outlines item)
        (readNode_outlines item)).bind fun _ first =>
          (readLabelled_outlines opened rest).bind fun _ second => .ok (first.append second)

theorem readChildren_outlines : ∀ entries : List (String × Json),
    (entries.any fun entry => isChildrenKey entry.1) = true →
    Yields (fun tree => ∃ before key item after,
      entries = before ++ (key, item) :: after ∧ isChildrenKey key = true ∧
        item.Outlines hint (PredicateTree.outline tree)) (readChildren hint entries)
  | [], given => nomatch given
  | (key, item) :: rest, given => by
    rw [readChildren]
    split
    · rename_i children
      intro tree returned
      exact ⟨[], key, item, rest, rfl, children, readBody_outlines item tree returned⟩
    · rename_i other
      have later : (rest.any fun entry => isChildrenKey entry.1) = true := by
        rw [List.any_cons, Bool.eq_false_iff.mpr other, Bool.false_or] at given
        exact given
      intro tree returned
      obtain ⟨before, found, value, after, split, children, accounts⟩ :=
        readChildren_outlines rest later tree returned
      exact ⟨(key, item) :: before, found, value, after, by rw [split]; rfl, children, accounts⟩
end

end Predicate

theorem PredicateTree.read_outlines {hint : TypeHint} {value : Json} :
    Yields (fun tree => value.Outlines hint (PredicateTree.outline tree))
      (PredicateTree.read hint value) := by
  unfold PredicateTree.read
  split
  · exact .ok (.exact [])
  · exact .error _
  · exact .error _
  · exact readBody_outlines value

/-- A filter that is read has tests and groups that its document asks for, each as it is described
there and in the order of the document. It has all of them if no object asks for more than the one
thing that it is read as, and it lacks some otherwise. -/
theorem PredicateTree.outline_read {hint : TypeHint} {value : Json} {tree : PredicateTree}
    (read : PredicateTree.read hint value = .ok tree) :
    ((PredicateTree.outline tree).map Except.ok).Sublist (value.parts hint) ∧
      ((PredicateTree.outline tree).map Except.ok = value.parts hint ↔ value.unmixed = true) ∧
      PredicateTree.leaves tree = (PredicateTree.outline tree).filterMap Part.test? := by
  have accounts := PredicateTree.read_outlines tree read
  exact ⟨accounts.sublist, accounts.eq_iff, (PredicateTree.filterMap_outline tree).symm⟩

namespace NestedFilter

/-- A group by a word with an alternative in it, and a list of members around a label map. -/
def document : Json :=
  .object [("OR", .object [("sub", .string "and"), ("conj", .string "or"),
      ("first", .object [("field", .string "a.x"), ("value", .string "1")]),
      ("OR", .array [.object [("field", .string "a.y"), ("value", .string "2")]])]),
    ("rest", .object [("conj", .string "or"), ("Group", .object [
      ("raw", .string "a.z IS NULL"),
      ("last", .array [.object [("field", .string "a.w"), ("value", .string "3")]])])])]

def test (field value : String) : Condition :=
  ⟨field, "=", some (.string value), .string, .and⟩

def tree : PredicateTree :=
  [.group .or [.group .and [.leaf (test "a.x" "1"), .group .or [.leaf (test "a.y" "2")]]],
    .group .or [.raw "a.z IS NULL" .and, .leaf (test "a.w" "3")]]

/-- A test with an alternative beside it, in one object. -/
def mixed : Json :=
  .array [.object [("field", .string "a.x"), ("value", .string "1"),
    ("OR", .array [.object [("field", .string "a.y"), ("value", .string "2")]])]]

end NestedFilter

open NestedFilter in
theorem outline_read_nestedFilter :
    PredicateTree.read .string document = .ok tree ∧
      document.parts .string = [.ok (.group .or), .ok (.group .and), .ok (.test (test "a.x" "1")),
        .ok (.group .or), .ok (.test (test "a.y" "2")), .ok (.group .or),
        .ok (.test (test "a.w" "3"))] := by
  have read : PredicateTree.read .string document = .ok tree := by decide +kernel
  have unmixed : document.unmixed = true := by decide +kernel
  exact ⟨read, ((PredicateTree.outline_read read).2.1.mpr unmixed).symm⟩

open NestedFilter in
/-- An alternative beside a field is left out without a word. -/
theorem alternative_dropped :
    PredicateTree.read .string mixed = .ok [.leaf (test "a.x" "1")] ∧
      mixed.parts .string = [.ok (.test (test "a.x" "1")), .ok (.group .or),
        .ok (.test (test "a.y" "2"))] := by
  decide +kernel

end SelectCompiler
