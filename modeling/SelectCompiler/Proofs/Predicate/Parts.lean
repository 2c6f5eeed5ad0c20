import Mathlib.Control.Monad.Basic
import SelectCompiler.Proofs.Predicate.Reading

/-!
The tests and the groups that a document asks for, in the order in which they stand in it, object by
object and with no regard to how the reader goes about it. An object that is no label map and no
group by a word is read by one of its entries, so whatever else it asks for is lost.
-/

namespace SelectCompiler

/-- A test, or the beginning of a group. -/
inductive Part where
  | test (condition : Condition)
  | group (connective : Connective)
  deriving DecidableEq

def Part.test? : Part → Option Condition
  | test condition => some condition
  | group _ => none

mutual
/-- The tests and groups of a predicate in order, a group before its members. -/
def Predicate.outline : Predicate → List Part
  | .leaf condition => [.test condition]
  | .raw _ _ => []
  | .group connective children => .group connective :: PredicateTree.outline children

def PredicateTree.outline : List Predicate → List Part
  | [] => []
  | node :: rest => node.outline ++ PredicateTree.outline rest
end

mutual
theorem Predicate.filterMap_outline : ∀ node : Predicate,
    node.outline.filterMap Part.test? = node.leaves
  | .leaf _ => rfl
  | .raw _ _ => rfl
  | .group _ children => PredicateTree.filterMap_outline children

/-- The tests of an outline are those of the filter, depth first. -/
theorem PredicateTree.filterMap_outline : ∀ tree : PredicateTree,
    (PredicateTree.outline tree).filterMap Part.test? = PredicateTree.leaves tree
  | [] => rfl
  | node :: rest => by
    rw [PredicateTree.outline, List.filterMap_append, Predicate.filterMap_outline node,
      PredicateTree.filterMap_outline rest, PredicateTree.leaves]
end

namespace Predicate

/-- What an entry of an object asks for. -/
inductive Place where
  /-- Nothing: the entry says something about another one, or about the object. -/
  | setting
  | test
  /-- A group whose members the entry holds. -/
  | group (connective : Except Error Connective)
  /-- What the entry holds is a predicate in its turn. -/
  | predicate

/-- The object of an entry with this key is a test or the frame of a group. -/
def isSubject (key : String) : Bool :=
  isChildrenKey key || key == "field"

/-- The object is not read entry by entry: it is a test, raw text or the frame of a group. -/
def isClosed (members : Json.Members) : Bool :=
  members.all (fun member => !groupWords.contains member.1) &&
    members.any fun member => isSubject member.1 || member.1 == "sql"

/-- What an entry asks for by its key, in an object with these members. -/
def Place.ofKey (members : Json.Members) (key : String) : Place :=
  if isClosed members then
    if isChildrenKey key then .group (ownConnective members)
    else if key = "field" then .test
    else
      match EntryRole.ofKey key with
      | .joined connective => .group (.ok connective)
      | _ => .setting
  else if groupWords.contains key then .setting
  else
    match EntryRole.ofKey key with
    | .leafOnly => .setting
    | .joined connective => .group (.ok connective)
    | .label => .predicate

/-- The test that an object describes, if it has a field. -/
def ownTest (hint : TypeHint) (members : Json.Members) : Except Error Condition :=
  match members.get? "field" with
  | some field => do ownCondition hint field members (← ownConnective members)
  | none => .error (.malformedPredicate (.fieldRequired (.object members)))

/-- The group that an object is by one of its words; the last of them counts. -/
def ownGroup (members : Json.Members) : List (Except Error Part) :=
  ((members.reverse.find? fun member => groupWords.contains member.1).map fun member =>
    Part.group <$> (textAt member.1 member.2 >>= Connective.ofToken)).toList

/-- The parts that an entry asks for, given the test of its object and the parts of what it
holds. -/
def Place.parts (own : Except Error Condition) (held : List (Except Error Part)) :
    Place → List (Except Error Part)
  | setting => []
  | test => [Part.test <$> own]
  | group connective => (Part.group <$> connective) :: held
  | predicate => held

/-- Whether what the entry holds is as it should be, where it matters. -/
def Place.admits (held : Bool) : Place → Bool
  | setting => true
  | test => true
  | group _ => held
  | predicate => held

/-- The entry asks for something in an object that is not read entry by entry. -/
def stands (key : String) : Bool :=
  isSubject key ||
    match EntryRole.ofKey key with
    | .joined _ => true
    | _ => false

/-- At most one entry asks for something, and it is the one by which the object is read. -/
def isSingle (members : Json.Members) : Bool :=
  members.countP (fun member => stands member.1) ≤ 1 &&
    members.all fun member => !stands member.1 || isSubject member.1

end Predicate

open Predicate

mutual
/-- The tests and groups that a document asks for in the order in which they stand in it, or the
faults in their place. -/
def Json.parts (hint : TypeHint) : Json → List (Except Error Part)
  | .array items => Json.itemParts hint items
  | .object members => ownGroup members ++ Json.entryParts hint members members
  | _ => []

def Json.itemParts (hint : TypeHint) : List Json → List (Except Error Part)
  | [] => []
  | item :: rest => item.parts hint ++ Json.itemParts hint rest

/-- The parts of some entries of an object with the given members. -/
def Json.entryParts (hint : TypeHint) (members : Json.Members) :
    List (String × Json) → List (Except Error Part)
  | [] => []
  | (key, item) :: rest =>
    (Place.ofKey members key).parts (ownTest hint members) (item.parts hint)
      ++ Json.entryParts hint members rest
end

mutual
/-- No object of the document asks for more than the one thing that it is read as. -/
def Json.unmixed : Json → Bool
  | .array items => Json.itemsUnmixed items
  | .object members =>
    (!isClosed members || isSingle members) && Json.entriesUnmixed members members
  | _ => true

def Json.itemsUnmixed : List Json → Bool
  | [] => true
  | item :: rest => item.unmixed && Json.itemsUnmixed rest

def Json.entriesUnmixed (members : Json.Members) : List (String × Json) → Bool
  | [] => true
  | (key, item) :: rest =>
    (Place.ofKey members key).admits item.unmixed && Json.entriesUnmixed members rest
end

/-- An outline has some of the parts in their order, and all of them exactly if none is mixed up
with another. -/
structure Accounts (unmixed : Bool) (parts : List (Except Error Part)) (outline : List Part) :
    Prop where
  sublist : (outline.map Except.ok).Sublist parts
  complete : unmixed = true ↔ parts.length ≤ outline.length

/-- The outline accounts for what a document asks for. -/
def Json.Outlines (hint : TypeHint) (value : Json) (outline : List Part) : Prop :=
  Accounts value.unmixed (value.parts hint) outline

/-- The outline accounts for what some entries of an object with the given members ask for. -/
def Json.OutlinesEntries (hint : TypeHint) (members entries : Json.Members)
    (outline : List Part) : Prop :=
  Accounts (Json.entriesUnmixed members entries) (Json.entryParts hint members entries) outline

/-- The outline accounts for what one of the entries asks for. -/
def Json.OutlinesEntry (hint : TypeHint) (members : Json.Members) (key : String) (item : Json)
    (outline : List Part) : Prop :=
  Accounts ((Place.ofKey members key).admits item.unmixed)
    ((Place.ofKey members key).parts (ownTest hint members) (item.parts hint)) outline

namespace Accounts

variable {unmixed other : Bool} {parts more before after : List (Except Error Part)}
  {outline further : List Part}

theorem exact (outline : List Part) : Accounts true (outline.map .ok) outline where
  sublist := .refl _
  complete := by simp

theorem length_le (accounts : Accounts unmixed parts outline) : outline.length ≤ parts.length := by
  have short := accounts.sublist.length_le
  rwa [List.length_map] at short

theorem append (first : Accounts unmixed parts outline) (second : Accounts other more further) :
    Accounts (unmixed && other) (parts ++ more) (outline ++ further) where
  sublist := by
    rw [List.map_append]
    exact first.sublist.append second.sublist
  complete := by
    have one := first.length_le
    have two := second.length_le
    rw [Bool.and_eq_true, first.complete, second.complete, List.length_append, List.length_append]
    omega

/-- A group accounts for itself and for its members. -/
theorem group (connective : Connective) (accounts : Accounts unmixed parts outline) :
    Accounts unmixed (.ok (.group connective) :: parts) (.group connective :: outline) :=
  (exact [.group connective]).append accounts

/-- With parts around it an outline is complete only if there are none. -/
theorem amid (accounts : Accounts unmixed parts outline)
    (alone : other = true ↔ before = [] ∧ after = [] ∧ unmixed = true) :
    Accounts other (before ++ (parts ++ after)) outline where
  sublist := (accounts.sublist.trans (List.sublist_append_left parts after)).trans
    (List.sublist_append_right before _)
  complete := by
    have short := accounts.length_le
    rw [alone, accounts.complete, List.length_append, List.length_append,
      ← List.length_eq_zero_iff, ← List.length_eq_zero_iff]
    omega

theorem eq_iff (accounts : Accounts unmixed parts outline) :
    outline.map .ok = parts ↔ unmixed = true := by
  rw [accounts.complete]
  constructor
  · rintro rfl
    exact Nat.le_of_eq (List.length_map _)
  · intro long
    exact accounts.sublist.eq_of_length_le (by rwa [List.length_map])

end Accounts

namespace Predicate

variable {hint : TypeHint} {members before after entries : Json.Members} {key : String}
  {item value : Json} {outline : List Part}

theorem isClosed_eq_true_iff :
    isClosed members = true ↔ (∀ member ∈ members, groupWords.contains member.1 = false) ∧
      ∃ member ∈ members, isSubject member.1 = true ∨ member.1 = "sql" := by
  simp only [isClosed, Bool.and_eq_true, List.all_eq_true, List.any_eq_true, Bool.not_eq_true',
    Bool.or_eq_true, beq_iff_eq]

theorem isSingle_eq_true_iff :
    isSingle members = true ↔ members.countP (fun member => stands member.1) ≤ 1 ∧
      ∀ member ∈ members, stands member.1 = true → isSubject member.1 = true := by
  simp only [isSingle, Bool.and_eq_true, decide_eq_true_eq, List.all_eq_true, Bool.or_eq_true,
    Bool.not_eq_true', ← Bool.not_eq_true, ← imp_iff_not_or]

theorem ownGroup_of_unworded (unworded : ∀ member ∈ members, groupWords.contains member.1 = false) :
    ownGroup members = [] := by
  rw [ownGroup, find?_groupWord_eq_none unworded]
  rfl

theorem entryParts_append :
    Json.entryParts hint members (before ++ after) =
      Json.entryParts hint members before ++ Json.entryParts hint members after := by
  induction before with
  | nil => rfl
  | cons entry rest ih =>
    rw [List.cons_append, Json.entryParts, ih, Json.entryParts, List.append_assoc]

theorem entriesUnmixed_append :
    Json.entriesUnmixed members (before ++ after) =
      (Json.entriesUnmixed members before && Json.entriesUnmixed members after) := by
  induction before with
  | nil => rfl
  | cons entry rest ih =>
    rw [List.cons_append, Json.entriesUnmixed, ih, Json.entriesUnmixed, Bool.and_assoc]

/-- Entries that ask for nothing are none that count. -/
theorem quiet_iff : (∀ entry ∈ entries, stands entry.1 = false) ↔
    entries.countP (fun entry => stands entry.1) = 0 := by
  simp only [List.countP_eq_zero, Bool.not_eq_true]

section Closed

variable (closed : isClosed members = true)

include closed

theorem parts_of_closed :
    (Json.object members).parts hint = Json.entryParts hint members members := by
  rw [Json.parts, ownGroup_of_unworded (isClosed_eq_true_iff.mp closed).1, List.nil_append]

theorem unmixed_of_closed :
    (Json.object members).unmixed =
      (isSingle members && Json.entriesUnmixed members members) := by
  rw [Json.unmixed, closed, Bool.not_true, Bool.false_or]

theorem Place.ofKey_children (children : isChildrenKey key = true) :
    Place.ofKey members key = .group (ownConnective members) := by
  rw [ofKey, if_pos closed, if_pos children]

theorem Place.ofKey_field : Place.ofKey members "field" = .test := by
  have childless : isChildrenKey "field" = false := by decide +kernel
  rw [ofKey, if_pos closed, childless]
  rfl

/-- What does not stand for anything is a setting. -/
theorem Place.ofKey_eq_setting_iff : Place.ofKey members key = .setting ↔ stands key = false := by
  rw [ofKey, if_pos closed, stands, isSubject]
  by_cases children : isChildrenKey key = true
  · simp [children]
  · by_cases field : key = "field"
    · subst field
      simp [children]
    · cases EntryRole.ofKey key <;> simp [children, field]

theorem Place.ofKey_ne_predicate : Place.ofKey members key ≠ .predicate := by
  rw [ofKey, if_pos closed]
  split
  · exact nofun
  · split
    · exact nofun
    · split <;> exact nofun

theorem parts_eq_nil_iff {own : Except Error Condition} {held : List (Except Error Part)} :
    (Place.ofKey members key).parts own held = [] ↔ stands key = false := by
  rw [← Place.ofKey_eq_setting_iff closed]
  have closedPlace : Place.ofKey members key ≠ .predicate := Place.ofKey_ne_predicate closed
  cases place : Place.ofKey members key with
  | setting => simp [Place.parts]
  | test => simp [Place.parts]
  | group connective => simp [Place.parts]
  | predicate => exact absurd place closedPlace

theorem entryParts_eq_nil_iff :
    Json.entryParts hint members entries = [] ↔ ∀ entry ∈ entries, stands entry.1 = false := by
  induction entries with
  | nil => simp [Json.entryParts]
  | cons entry rest ih =>
    rw [Json.entryParts, List.append_eq_nil_iff, parts_eq_nil_iff closed, ih, List.forall_mem_cons]

theorem entriesUnmixed_of_quiet (quiet : ∀ entry ∈ entries, stands entry.1 = false) :
    Json.entriesUnmixed members entries = true := by
  induction entries with
  | nil => rfl
  | cons entry rest ih =>
    obtain ⟨first, others⟩ := List.forall_mem_cons.mp quiet
    rw [Json.entriesUnmixed, ih others, (Place.ofKey_eq_setting_iff closed).mpr first]
    rfl

omit closed in
/-- The entry by which an object is read is the only one that stands for anything. -/
theorem isSingle_iff (split : members = before ++ (key, item) :: after)
    (read : isSubject key = true) :
    isSingle members = true ↔
      (∀ entry ∈ before, stands entry.1 = false) ∧ ∀ entry ∈ after, stands entry.1 = false := by
  have here : stands key = true := by rw [stands, read, Bool.true_or]
  rw [isSingle_eq_true_iff, quiet_iff, quiet_iff, split, List.countP_append,
    List.countP_cons_of_pos (by exact here)]
  constructor
  · rintro ⟨few, _⟩
    omega
  · rintro ⟨first, last⟩
    refine ⟨by omega, ?_⟩
    rw [← quiet_iff] at first last
    intro member present stood
    rw [List.mem_append, List.mem_cons] at present
    rcases present with old | rfl | new
    · rw [first member old] at stood
      contradiction
    · exact read
    · rw [last member new] at stood
      contradiction

/-- An object that is read by one of its entries is accounted for by what accounts for that
entry. -/
theorem outlines_of_entry (split : members = before ++ (key, item) :: after)
    (read : isSubject key = true)
    (entry : Json.OutlinesEntry hint members key item outline) :
    (Json.object members).Outlines hint outline := by
  have parts : (Json.object members).parts hint = Json.entryParts hint members before ++
      ((Place.ofKey members key).parts (ownTest hint members) (item.parts hint) ++
        Json.entryParts hint members after) := by
    rw [parts_of_closed closed]
    conv => lhs; arg 3; rw [split]
    rw [entryParts_append, Json.entryParts]
  have unmixed : (Json.object members).unmixed = (isSingle members &&
      (Json.entriesUnmixed members before && ((Place.ofKey members key).admits item.unmixed &&
        Json.entriesUnmixed members after))) := by
    rw [unmixed_of_closed closed]
    conv => lhs; arg 2; arg 2; rw [split]
    rw [entriesUnmixed_append, Json.entriesUnmixed]
  rw [Json.Outlines, parts]
  -- What is around the entry adds no part exactly if the entry is the only one that stands.
  refine entry.amid ?_
  rw [unmixed, entryParts_eq_nil_iff closed, entryParts_eq_nil_iff closed, Bool.and_eq_true,
    isSingle_iff split read]
  constructor
  · rintro ⟨⟨first, last⟩, held⟩
    simp only [Bool.and_eq_true] at held
    exact ⟨first, last, held.2.1⟩
  · rintro ⟨first, last, held⟩
    rw [entriesUnmixed_of_quiet closed first, entriesUnmixed_of_quiet closed last, held]
    exact ⟨⟨first, last⟩, rfl⟩

/-- Raw text accounts for its object if none of the entries asks for anything. -/
theorem outlines_of_raw
    (unread : ∀ member ∈ members, isSubject member.1 = false) :
    (Json.object members).Outlines hint [] where
  sublist := List.nil_sublist _
  complete := by
    rw [parts_of_closed closed, List.length_nil, Nat.le_zero, List.length_eq_zero_iff,
      entryParts_eq_nil_iff closed, unmixed_of_closed closed, Bool.and_eq_true,
      isSingle_eq_true_iff]
    constructor
    · rintro ⟨⟨_, only⟩, _⟩ member present
      rw [← Bool.not_eq_true]
      intro stood
      have subject := only member present stood
      rw [unread member present] at subject
      contradiction
    · intro quiet
      refine ⟨⟨?_, ?_⟩, entriesUnmixed_of_quiet closed quiet⟩
      · rw [quiet_iff.mp quiet]
        exact Nat.zero_le 1
      · intro member present stood
        rw [quiet member present] at stood
        contradiction

end Closed

end Predicate

end SelectCompiler
