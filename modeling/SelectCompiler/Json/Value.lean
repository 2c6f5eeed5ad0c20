import SelectCompiler.Binary64.Basic

/-!
JSON values with ordered members. Document order is part of the value: an object is the list of its
members, and writing a key that is there already changes its value and not its place.
-/

namespace SelectCompiler

inductive Json.Number where
  | integer (n : Int)
  | real (x : Binary64)
  deriving DecidableEq, Repr

inductive Json where
  | null
  | bool (value : Bool)
  | number (value : Json.Number)
  | string (text : String)
  | array (items : List Json)
  | object (members : List (String × Json))
  deriving Repr

namespace Json

abbrev Members := List (String × Json)

/-- The value of the first member with this key. -/
def Members.get? (members : Members) (key : String) : Option Json :=
  List.lookup key members

/-- Write a member: a known key keeps its place and a new one goes to the end. -/
def Members.insert (members : Members) (key : String) (value : Json) : Members :=
  match members with
  | [] => [(key, value)]
  | member :: rest =>
    if member.1 = key then (key, value) :: rest else member :: Members.insert rest key value

/-- The members written one after the other: a repeated key keeps its first place and its last
value. -/
def Members.ofList (entries : List (String × Json)) : Members :=
  entries.foldl (fun members entry => members.insert entry.1 entry.2) []

def Members.keys (members : Members) : List String :=
  members.map (·.1)

/-- Arrays and objects. -/
def isStructured : Json → Bool
  | .array _ | .object _ => true
  | _ => false

/-- A value that can stand for a bound parameter: not null, not structured. -/
def isBindable : Json → Bool
  | .bool _ | .number _ | .string _ => true
  | _ => false

def ofNat (n : Nat) : Json := .number (.integer n)

mutual
/-- Equality of values, member order included. -/
def same : Json → Json → Bool
  | .null, .null => true
  | .bool a, .bool b => a == b
  | .number a, .number b => a == b
  | .string a, .string b => a == b
  | .array a, .array b => sameItems a b
  | .object a, .object b => sameMembers a b
  | _, _ => false

def sameItems : List Json → List Json → Bool
  | [], [] => true
  | a :: as, b :: bs => same a b && sameItems as bs
  | _, _ => false

def sameMembers : List (String × Json) → List (String × Json) → Bool
  | [], [] => true
  | (key, a) :: as, (key', b) :: bs => key == key' && same a b && sameMembers as bs
  | _, _ => false
end

mutual
theorem same_iff_eq : ∀ a b : Json, same a b = true ↔ a = b
  | .null, b => by cases b <;> simp [same]
  | .bool _, b => by cases b <;> simp [same]
  | .number _, b => by cases b <;> simp [same]
  | .string _, b => by cases b <;> simp [same]
  | .array a, b => by cases b <;> simp [same, sameItems_iff_eq a]
  | .object a, b => by cases b <;> simp [same, sameMembers_iff_eq a]

theorem sameItems_iff_eq : ∀ a b : List Json, sameItems a b = true ↔ a = b
  | [], b => by cases b <;> simp [sameItems]
  | a :: as, b => by cases b <;> simp [sameItems, same_iff_eq a, sameItems_iff_eq as]

theorem sameMembers_iff_eq : ∀ a b : List (String × Json), sameMembers a b = true ↔ a = b
  | [], b => by cases b <;> simp [sameMembers]
  | (_, a) :: as, b => by
    cases b <;> simp [sameMembers, same_iff_eq a, sameMembers_iff_eq as, Prod.ext_iff]
end

instance : DecidableEq Json := fun a b => decidable_of_iff _ (same_iff_eq a b)

end Json

end SelectCompiler
