import SelectCompiler.Proofs.Predicate.Revision

/-!
Descriptions and filters with their bound values masked. Two of them that look the same when masked
differ in nothing but the scalars that are bound as parameters.
-/

namespace SelectCompiler

/-- A scalar that is not null, replaced by one that all of them share. -/
def Json.mask (value : Json) : Json :=
  if value.isBindable then .bool true else value

mutual
/-- The value with every scalar masked that stands under the key `value` of an object in it. -/
def Json.maskBound : Json → Json
  | .array items => .array (Json.maskBoundItems items)
  | .object members => .object (Json.maskBoundMembers members)
  | value => value

def Json.maskBoundItems : List Json → List Json
  | [] => []
  | item :: rest => item.maskBound :: Json.maskBoundItems rest

def Json.maskBoundMembers : Json.Members → Json.Members
  | [] => []
  | (key, value) :: rest =>
    (key, if key = "value" then value.maskBound.mask else value.maskBound)
      :: Json.maskBoundMembers rest
end

/-- What masking makes of the value under a key. -/
def Json.maskEntry (key : String) (value : Json) : Json :=
  if key = "value" then value.maskBound.mask else value.maskBound

def Condition.mask (condition : Condition) : Condition :=
  { condition with value := condition.value.map Json.mask }

mutual
/-- The predicate with the values of all its tests masked. -/
def Predicate.mask : Predicate → Predicate
  | .leaf condition => .leaf condition.mask
  | .raw sql connective => .raw sql connective
  | .group connective children => .group connective (PredicateTree.mask children)

def PredicateTree.mask : List Predicate → List Predicate
  | [] => []
  | node :: rest => node.mask :: PredicateTree.mask rest
end

/-- Values of tests masked. -/
def Revision.masked : Revision where
  value := Option.map Json.mask

mutual
theorem Predicate.mask_eq_revise : ∀ node : Predicate, node.mask = node.revise .masked
  | .leaf _ => rfl
  | .raw _ _ => rfl
  | .group connective children => by
    rw [Predicate.mask, Predicate.revise, PredicateTree.mask_eq_revise children]

/-- Masking is a revision like others. -/
theorem PredicateTree.mask_eq_revise : ∀ nodes : List Predicate,
    PredicateTree.mask nodes = PredicateTree.revise .masked nodes
  | [] => rfl
  | node :: rest => by
    rw [PredicateTree.mask, PredicateTree.revise, Predicate.mask_eq_revise node,
      PredicateTree.mask_eq_revise rest]
end

namespace Json

variable {key : String} {value : Json} {members : Members}

@[simp] theorem isStructured_mask : value.mask.isStructured = value.isStructured := by
  cases value <;> rfl

@[simp] theorem isStructured_maskBound : value.maskBound.isStructured = value.isStructured := by
  cases value <;> simp only [maskBound, isStructured]

theorem mask_eq_null_iff : value.mask = .null ↔ value = .null := by
  cases value <;> simp [mask, isBindable]

theorem maskEntry_of_ne (other : key ≠ "value") : maskEntry key value = value.maskBound :=
  if_neg other

theorem maskBoundMembers_cons (key : String) (value : Json) (rest : Members) :
    maskBoundMembers ((key, value) :: rest) =
      (key, maskEntry key value) :: maskBoundMembers rest := rfl

/-- A key is looked up before or after the values have been changed, each by its key. -/
theorem Members.get?_map (change : String → Json → Json) :
    Members.get? (members.map fun member => (member.1, change member.1 member.2)) key =
      (members.get? key).map (change key) := by
  unfold Members.get?
  induction members with
  | nil => rfl
  | cons member rest ih =>
    rw [List.map_cons, List.lookup_cons, List.lookup_cons]
    split
    · rename_i same
      rw [beq_iff_eq.mp same]
      rfl
    · exact ih

end Json

end SelectCompiler
