import SelectCompiler.Proofs.Predicate.Alike
import SelectCompiler.Proofs.Text.Trimming

/-!
The spellings of a group. A group can be written in its canonical form, with a group word among its
labelled members, or under its connective as a list or as a label map. All of these are read as the
same predicate, so one may stand for another anywhere in a description.
-/

namespace SelectCompiler.Predicate

/-- The keys that say something about the object in which they stand. -/
def reservedKeys : List String :=
  groupWords ++ ["field", "sql", "value"] ++ comparatorKeys ++ hintKeys ++ connectiveKeys

/-- A key that does nothing but name the entry behind it. -/
structure IsLabel (key : String) : Prop where
  plain : key ∉ reservedKeys
  connective : Connective.ofToken? key = none
  children : isChildrenKey key = false

/-- The ways to write a group with these members whose connective is the one of a token: its
canonical form; an object in which the last of the group words holds the token and the other entries
are the labelled members; and a list or a label map under the token. -/
inductive Spells (token : String) (items : List Json) : Json → Prop where
  | canonical : Spells token items (.object [("conj", .string token), ("children", .array items)])
  | worded {members : Json.Members} {word : String}
      (last : members.reverse.find? (fun member => groupWords.contains member.1) =
        some (word, .string token))
      (labels : ∀ member ∈ members, member.1 ∈ groupWords ∨ IsLabel member.1)
      (held : (members.filter fun member => !groupWords.contains member.1).map (·.2) = items) :
      Spells token items (.object members)
  | listed : Spells token items (.object [(token, .array items)])
  | mapped {entries : Json.Members} (labels : ∀ entry ∈ entries, IsLabel entry.1)
      (held : entries.map (·.2) = items) : Spells token items (.object [(token, .object entries)])

/-- One spelling of a group replaced by another, somewhere in a description. -/
inductive Respelled : Json → Json → Prop where
  | group {token : String} {connective : Connective} {items : List Json} {first second : Json}
      (named : Connective.ofToken token = .ok connective) (one : Spells token items first)
      (another : Spells token items second) : Respelled first second
  | item (before after : List Json) {first second : Json} (inside : Respelled first second) :
      Respelled (.array (before ++ first :: after)) (.array (before ++ second :: after))
  | entry (before after : Json.Members) (key : String) {first second : Json}
      (inside : Respelled first second) :
      Respelled (.object (before ++ (key, first) :: after))
        (.object (before ++ (key, second) :: after))

section Keys

variable {key : String} {connective : Connective}

theorem not_mem_reservedKeys_iff :
    key ∉ reservedKeys ↔ key ∉ groupWords ∧ (key ≠ "field" ∧ key ≠ "sql" ∧ key ≠ "value") ∧
      key ∉ comparatorKeys ∧ key ∉ hintKeys ∧ key ∉ connectiveKeys := by
  simp only [reservedKeys, List.mem_append, not_or, List.mem_cons, List.not_mem_nil,
    not_false_eq_true, and_true, and_assoc]

/-- The role of a key without a meaning of its own. -/
theorem EntryRole.ofKey_of_plain (plain : key ∉ reservedKeys) :
    EntryRole.ofKey key = (Connective.ofToken? key).elim .label .joined := by
  obtain ⟨_, ⟨_, _, value⟩, comparator, hint, connective⟩ := not_mem_reservedKeys_iff.mp plain
  unfold EntryRole.ofKey
  rw [if_neg]
  · cases Connective.ofToken? key <;> rfl
  · simp only [List.contains_iff_mem, not_or]
    exact ⟨value, comparator, hint, connective⟩

theorem IsLabel.role (label : IsLabel key) : EntryRole.ofKey key = .label := by
  rw [EntryRole.ofKey_of_plain label.plain, label.connective, Option.elim_none]

/-- No key for members is a connective: it is too long, and there is nothing to trim. -/
theorem ofToken?_of_isChildrenKey (children : isChildrenKey key = true) :
    Connective.ofToken? key = none := by
  have known : key.toLower ∈ childrenKeys := List.contains_iff_mem.mp children
  have letters : ∀ word ∈ childrenKeys, (word.toList.all fun c => !Text.isBlank c) = true ∧
      3 < word.length := by decide
  obtain ⟨visible, long⟩ := letters _ known
  have same : Text.trim key = key := by
    refine Text.trim_of_visible fun c member => ?_
    rw [Bool.eq_false_iff]
    intro blank
    have lower : c ∈ (key.map Char.toLower).toList := by
      rw [String.toList_map, List.mem_map]
      exact ⟨c, member, Text.toLower_of_isBlank blank⟩
    have shown := List.all_eq_true.mp visible c lower
    rw [blank] at shown
    contradiction
  have length : key.toUpper.length = key.toLower.length :=
    (String.length_map).trans String.length_map.symm
  have other (word : String) (short : word.length ≤ 3) : key.toUpper ≠ word := by
    rintro rfl
    omega
  unfold Connective.ofToken?
  rw [same]
  simp only [other "AND" (by decide), other "OR" (by decide), if_false]

theorem ofToken?_of_ofToken (named : Connective.ofToken key = .ok connective) :
    Connective.ofToken? key = some connective := by
  unfold Connective.ofToken at named
  split at named
  · rename_i found
    rw [found, Except.ok.inj named]
  · contradiction

/-- No key with a meaning of its own is a connective. -/
theorem not_mem_reservedKeys_of_ofToken (named : Connective.ofToken key = .ok connective) :
    key ∉ reservedKeys := by
  have unconnected : ∀ key ∈ reservedKeys, Connective.ofToken? key = none := by decide +kernel
  intro reserved
  cases (unconnected key reserved).symm.trans (ofToken?_of_ofToken named)

end Keys

section Shapes

variable {hint : TypeHint} {members : Json.Members}

/-- Members none of whose keys has a meaning of its own have no shape. -/
theorem Shape.ofMembers?_eq_none (plain : ∀ member ∈ members, member.1 ∉ reservedKeys)
    (childless : ∀ member ∈ members, isChildrenKey member.1 = false) :
    Shape.ofMembers? hint members = none := by
  have unworded : ∀ member ∈ members, groupWords.contains member.1 = false := by
    intro member present
    rw [← Bool.not_eq_true, List.contains_iff_mem]
    exact (not_mem_reservedKeys_iff.mp (plain member present)).1
  have parentless : (members.any fun member => isChildrenKey member.1) = false := by
    rw [List.any_eq_false]
    intro member present
    rw [childless member present]
    exact Bool.false_ne_true
  have missing (key : String) (reserved : key ∈ reservedKeys) : members.get? key = none := by
    refine List.lookup_eq_none_iff.mpr fun member present => ?_
    rw [bne_iff_ne]
    rintro rfl
    exact plain member present reserved
  simp only [Shape.ofMembers?, find?_groupWord_eq_none unworded, parentless, Bool.false_eq_true,
    ↓reduceIte, missing "field" (by decide), missing "sql" (by decide)]

theorem Shape.ofMembers?_labels (labels : ∀ member ∈ members, IsLabel member.1) :
    Shape.ofMembers? hint members = none :=
  Shape.ofMembers?_eq_none (fun member present => (labels member present).plain)
    fun member present => (labels member present).children

/-- An object whose only key is a connective has no shape: the key has no meaning beside that. -/
theorem Shape.ofMembers?_token {token : String} {connective : Connective} {item : Json}
    (named : Connective.ofToken token = .ok connective) :
    Shape.ofMembers? hint [(token, item)] = none := by
  refine Shape.ofMembers?_eq_none ?_ ?_ <;> rw [List.forall_mem_singleton]
  · exact not_mem_reservedKeys_of_ofToken named
  · rw [Bool.eq_false_iff]
    intro children
    cases (ofToken?_of_isChildrenKey children).symm.trans (ofToken?_of_ofToken named)

end Shapes

section Readings

variable {hint : TypeHint} {token : String} {connective : Connective} {items : List Json}

theorem buildEntry_label {key : String} {item : Json} {body : Unit → Except Error PredicateTree}
    {node : Unit → Except Error Predicate} (label : IsLabel key) :
    buildEntry key item body node = node () := by
  unfold buildEntry
  rw [label.role]

/-- The entries of a label map are read like a list of what stands behind the labels. -/
theorem readEntries_labels {entries : Json.Members} (labels : ∀ entry ∈ entries, IsLabel entry.1) :
    readEntries hint entries = readItems hint (entries.map (·.2)) := by
  induction entries with
  | nil => rw [List.map_nil, readEntries, readItems]
  | cons entry rest ih =>
    obtain ⟨key, item⟩ := entry
    obtain ⟨label, labels⟩ := List.forall_mem_cons.mp labels
    rw [List.map_cons, readEntries, readItems, buildEntry_label label, ih labels]

/-- So are the labelled members of a group beside its group words. -/
theorem readLabelled_labels {members : Json.Members}
    (labels : ∀ member ∈ members, member.1 ∈ groupWords ∨ IsLabel member.1) :
    readLabelled hint members =
      readItems hint ((members.filter fun member => !groupWords.contains member.1).map (·.2)) := by
  induction members with
  | nil => rw [List.filter_nil, List.map_nil, readLabelled, readItems]
  | cons member rest ih =>
    obtain ⟨key, item⟩ := member
    obtain ⟨head, labels⟩ := List.forall_mem_cons.mp labels
    rw [readLabelled, List.filter_cons, ih labels]
    rcases head with word | label
    · have known := List.contains_iff_mem.mpr word
      simp only [isGroupSetting, known, Bool.true_or, Bool.not_true, if_true, Bool.false_eq_true,
        if_false]
    · obtain ⟨word, _, _, _, setting⟩ := not_mem_reservedKeys_iff.mp label.plain
      rw [← List.contains_iff_mem, Bool.not_eq_true] at word setting
      simp only [isGroupSetting, word, setting, Bool.or_false, Bool.false_eq_true, if_false,
        Bool.not_false, if_true, List.map_cons, readItems, buildEntry_label label]

section Tokens

variable (named : Connective.ofToken token = .ok connective)

include named

theorem EntryRole.ofKey_token : EntryRole.ofKey token = .joined connective := by
  rw [EntryRole.ofKey_of_plain (not_mem_reservedKeys_of_ofToken named), ofToken?_of_ofToken named,
    Option.elim_some]

/-- An object whose only key is a connective is a group, as a node and as a body. -/
theorem readNode_token (item : Json) :
    readNode hint (.object [(token, item)]) = .group connective <$> readBody hint item := by
  rw [readNode_single (Shape.ofMembers?_token named), isWrapper, buildEntry,
    EntryRole.ofKey_token named]
  rfl

theorem readBody_token (item : Json) :
    readBody hint (.object [(token, item)]) =
      (do return [← readNode hint (.object [(token, item)])]) := by
  rw [readBody_plain (Shape.ofMembers?_token named), readNode_token named, readEntries, buildEntry,
    EntryRole.ofKey_token named, readEntries]
  rfl

end Tokens

variable {value : Json}

theorem Spells.isStructured (spells : Spells token items value) : value.isStructured = true := by
  cases spells <;> rfl

theorem Spells.node_eq (named : Connective.ofToken token = .ok connective)
    (spells : Spells token items value) :
    readNode hint value = .group connective <$> readItems hint items := by
  cases spells with
  | canonical => exact readNode_conj_children items named
  | @worded _ word last labels held =>
    have token : (textAt word (.string token) >>= fun token => Connective.ofToken token) =
        .ok connective := named
    rw [readNode_shaped (Shape.ofMembers?_labelled last), ← held, ← readLabelled_labels labels,
      ← bind_assoc, token]
    rfl
  | listed => rw [readNode_token named, readBody]
  | mapped labels held =>
    rw [readNode_token named, readBody_plain (Shape.ofMembers?_labels labels),
      readEntries_labels labels, held]

/-- As the body of a group a spelled group is one predicate. -/
theorem Spells.body_eq (named : Connective.ofToken token = .ok connective)
    (spells : Spells token items value) :
    readBody hint value = (do return [← readNode hint value]) := by
  cases spells with
  | canonical => exact readBody_shaped (Shape.ofMembers?_conj_children token _)
  | worded last labels held => exact readBody_shaped (Shape.ofMembers?_labelled last)
  | listed => exact readBody_token named _
  | mapped labels held => exact readBody_token named _

end Readings

section Respellings

variable {hint : TypeHint} {first second : Json}

/-- Two spellings of a group are no different to the reader. -/
theorem Spells.alike {token : String} {connective : Connective} {items : List Json}
    (named : Connective.ofToken token = .ok connective) (one : Spells token items first)
    (another : Spells token items second) : Alike {} hint hint first second := by
  have node : readNode hint first = readNode hint second :=
    (one.node_eq named).trans (another.node_eq named).symm
  have body : readBody hint first = readBody hint second := by
    rw [one.body_eq named, another.body_eq named, node]
  have self : Alike {} hint hint second second := alike_self rfl second
  exact ⟨.inr ⟨one.isStructured, another.isStructured⟩, node ▸ self.node, body ▸ self.body⟩

/-- A description stays alike to itself when a group in it is spelled in another way: in a list or
an object everything around the group is alike to itself. -/
theorem Respelled.alike (respelled : Respelled first second) : Alike {} hint hint first second := by
  induction respelled with
  | group named one another => exact one.alike named another
  | item before after inside ih =>
    exact .array (List.rel_append (alike_items rfl before) (.cons ih (alike_items rfl after)))
  | entry before after key inside ih =>
    exact .object rfl <| List.rel_append (related_self rfl before)
      (.cons ⟨rfl, ih.relates key⟩ (related_self rfl after))

end Respellings

end SelectCompiler.Predicate

namespace SelectCompiler

open Predicate

/-- A description in which a group is spelled in another way describes the same filter; if it
describes none, neither does the other, and both are refused as malformed. -/
theorem PredicateTree.read_respelled {first second : Json} (respelled : Respelled first second)
    (hint : TypeHint) :
    (∃ tree, PredicateTree.read hint first = .ok tree ∧ PredicateTree.read hint second = .ok tree) ∨
      ∃ fault other, PredicateTree.read hint first = .error (.malformedPredicate fault) ∧
        PredicateTree.read hint second = .error (.malformedPredicate other) := by
  have alike : Alike {} hint hint first second := respelled.alike
  have agree := read_agree alike
  generalize PredicateTree.read hint first = one at agree ⊢
  generalize PredicateTree.read hint second = another at agree ⊢
  cases agree with
  | @returned tree other same =>
    have unrevised (tree : PredicateTree) : PredicateTree.revise {} tree = tree :=
      (revise_eq_self_iff tree).mpr fun _ _ => Condition.revise_eq_self_iff.mpr ⟨rfl, rfl⟩
    rw [unrevised, unrevised] at same
    exact .inl ⟨tree, rfl, congrArg Except.ok same.symm⟩
  | refused fault other => exact .inr ⟨fault, other, rfl, rfl⟩

/-- A group of a test and a raw text in its canonical form. -/
def canonicalGroup : Json :=
  .object [("conj", .string " or "),
    ("children", .array [.object [("field", .string "b"), ("value", .ofNat 1)], .string "c > 0"])]

/-- The same group with two group words between its labelled members. -/
def wordedGroup : Json :=
  .object [("sub", .null), ("x", .object [("field", .string "b"), ("value", .ofNat 1)]),
    ("paren", .string " or "), ("y", .string "c > 0")]

/-- A label map with a test and, after it, a group. -/
def labelledAround (group : Json) : Json :=
  .object [("0", .object [("field", .string "a"), ("comp", .string "IS NULL")]), ("1", group)]

theorem read_respelled_labelledAround :
    ∃ tree, PredicateTree.read .money (labelledAround canonicalGroup) = .ok tree ∧
      PredicateTree.read .money (labelledAround wordedGroup) = .ok tree := by
  have label : ∀ key ∈ ["x", "y"], IsLabel key := by
    have plain : ∀ key ∈ ["x", "y"], key ∉ reservedKeys := by decide
    have connective : ∀ key ∈ ["x", "y"], Connective.ofToken? key = none := by decide +kernel
    have children : ∀ key ∈ ["x", "y"], isChildrenKey key = false := by decide +kernel
    exact fun key known => ⟨plain key known, connective key known, children key known⟩
  have named : Connective.ofToken " or " = .ok .or := by decide +kernel
  have respelled : Respelled canonicalGroup wordedGroup :=
    .group named .canonical (.worded rfl (by simp [groupWords, label]) rfl)
  have read : PredicateTree.read .money (labelledAround canonicalGroup) = .ok
      [.leaf ⟨"a", "IS NULL", none, .money, .and⟩,
        .group .or [.leaf ⟨"b", "=", some (.ofNat 1), .money, .and⟩, .raw "c > 0" .and]] := by
    decide +kernel
  rcases PredicateTree.read_respelled (.entry [_] [] "1" respelled) .money with
    same | ⟨_, _, refused, _⟩
  · exact same
  · cases read.symm.trans refused

end SelectCompiler
