import Mathlib.Data.List.Forall2
import Mathlib.Data.Option.Basic
import SelectCompiler.Proofs.Outcome
import SelectCompiler.Proofs.Predicate.Reading
import SelectCompiler.Proofs.Predicate.Revision

/-!
Two runs of the reader. They agree if both return what looks the same, or both refuse a predicate as
malformed. Where the members of two objects are related key by key, the parts of a test that are
read from them agree, and so do their shapes once the test is revised.
-/

namespace SelectCompiler

/-- Both results are returned and look the same, or both are refused as malformed. -/
inductive Agree {α β : Type} (view : α → β) : Except Error α → Except Error α → Prop where
  | returned {value other : α} (same : view value = view other) : Agree view (.ok value) (.ok other)
  | refused (fault other : PredicateFault) :
    Agree view (.error (.malformedPredicate fault)) (.error (.malformedPredicate other))

namespace Agree

variable {α β γ δ : Type} {view : α → γ} {outer : β → δ} {first second : Except Error α}

theorem bind {next after : α → Except Error β} (before : Agree view first second)
    (continued : ∀ value other, view value = view other → Agree outer (next value) (after other)) :
    Agree outer (first >>= next) (second >>= after) := by
  cases before with
  | returned same => exact continued _ _ same
  | refused fault other => exact .refused fault other

theorem bind_of_same {next after : α → Except Error β} (before : Agree id first second)
    (continued : ∀ value, Agree outer (next value) (after value)) :
    Agree outer (first >>= next) (second >>= after) :=
  before.bind fun value other same => by
    obtain rfl : value = other := same
    exact continued value

/-- Results that agree show the same. -/
theorem seen (agree : Agree view first second) : seen view first = seen view second := by
  cases agree with
  | returned same => exact congrArg Except.ok same
  | refused fault other => rfl

end Agree

/-- Two values that the reader takes for each other where it looks for a text or a scalar: they are
one, or neither of them is a scalar. -/
def Json.Similar (first second : Json) : Prop :=
  first = second ∨ (first.isStructured = true ∧ second.isStructured = true)

theorem Json.Similar.isStructured {first second : Json} (similar : first.Similar second) :
    first.isStructured = second.isStructured := by
  rcases similar with rfl | ⟨structured, structuredToo⟩
  · rfl
  · rw [structured, structuredToo]

section Members

variable {related : String → Json → Json → Prop} {first second : Json.Members}

/-- The same keys in the same order, with related values. -/
abbrev Json.Members.Related (related : String → Json → Json → Prop) :
    Json.Members → Json.Members → Prop :=
  List.Forall₂ fun member other => member.1 = other.1 ∧ related member.1 member.2 other.2

namespace Json.Members.Related

theorem get? (members : Json.Members.Related related first second) (key : String) :
    Option.Rel (related key) (first.get? key) (second.get? key) := by
  induction members with
  | nil => exact .none
  | @cons member other rest others head tail ih =>
    obtain ⟨same, held⟩ := head
    rw [Json.Members.get?, Json.Members.get?, List.lookup_cons, List.lookup_cons, ← same]
    cases found : key == member.1 with
    | true =>
      rw [beq_iff_eq.mp found]
      exact .some held
    | false => exact ih

theorem any (members : Json.Members.Related related first second) (test : String → Bool) :
    (first.any fun member => test member.1) = second.any fun member => test member.1 := by
  induction members with
  | nil => rfl
  | cons head tail ih => rw [List.any_cons, List.any_cons, head.1, ih]

theorem find? (members : Json.Members.Related related first second) (test : String → Bool) :
    Option.Rel (fun member other => member.1 = other.1 ∧ related member.1 member.2 other.2)
      (first.find? fun member => test member.1) (second.find? fun member => test member.1) := by
  induction members with
  | nil => exact .none
  | @cons member other rest others head tail ih =>
    rw [List.find?_cons, List.find?_cons, ← head.1]
    cases test member.1 with
    | true => exact .some head
    | false => exact ih

end Json.Members.Related

end Members

namespace Revision

/-- Two values that no test tells apart once it is revised. -/
def Confuses (revision : Revision) (first second : Json) : Prop :=
  first.Similar second ∨
    (first.isBindable = true ∧ second.isBindable = true ∧
      revision.value (some first) = revision.value (some second))

/-- How values under a key are related when all that counts of a value of a test is how it is
revised. -/
def Relates (revision : Revision) (related : Json → Json → Prop) (key : String) :
    Json → Json → Prop :=
  if key = "value" then revision.Confuses else related

variable {revision : Revision} {related : Json → Json → Prop}

theorem relates_value : revision.Relates related "value" = revision.Confuses := if_pos rfl

theorem relates_of_ne {key : String} (other : key ≠ "value") :
    revision.Relates related key = related := if_neg other

end Revision

namespace Predicate

section Parts

variable {key : String} {first second : Json}

theorem textAt_agree (similar : first.Similar second) :
    Agree id (textAt key first) (textAt key second) := by
  rcases similar with rfl | ⟨structured, structuredToo⟩
  · cases first with
    | string text => exact .returned rfl
    | _ => exact .refused _ _
  · cases first <;> cases structured <;> cases second <;> cases structuredToo <;>
      exact .refused _ _

theorem mapM_textAt_agree {given other : Option Json}
    (similar : Option.Rel Json.Similar given other) :
    Agree id (given.mapM (textAt key)) (other.mapM (textAt key)) := by
  cases similar with
  | none => exact .returned rfl
  | some similar => exact (textAt_agree similar).bind_of_same fun _ => .returned rfl

theorem ofToken_agree (token : String) :
    Agree id (Connective.ofToken token) (Connective.ofToken token) := by
  unfold Connective.ofToken
  split
  · exact .returned rfl
  · exact .refused _ _

end Parts

section Shapes

variable {revision : Revision} {related : Json → Json → Prop} {first second : Json.Members}

theorem firstOf_related (keys : List String) (plain : "value" ∉ keys)
    (members : Json.Members.Related (revision.Relates related) first second) :
    Option.Rel related (firstOf keys first) (firstOf keys second) := by
  unfold firstOf
  induction keys with
  | nil => exact .none
  | cons key rest ih =>
    rw [List.mem_cons, not_or] at plain
    have found := members.get? key
    rw [Revision.relates_of_ne (Ne.symm plain.1)] at found
    rw [List.findSome?_cons, List.findSome?_cons]
    cases one : first.get? key <;> cases another : second.get? key <;> rw [one, another] at found
    · exact ih plain.2
    · contradiction
    · contradiction
    · exact found

variable (members : Json.Members.Related (revision.Relates Json.Similar) first second)

include members

theorem ownConnective_agree : Agree id (ownConnective first) (ownConnective second) := by
  have found := firstOf_related connectiveKeys (by decide) members
  unfold ownConnective
  cases one : firstOf connectiveKeys first <;> cases another : firstOf connectiveKeys second <;>
    rw [one, another] at found <;> cases found
  · exact .returned rfl
  · rename_i similar
    exact (textAt_agree similar).bind_of_same ofToken_agree

/-- The values of a test: both missing or both there, and the same once they are revised. -/
theorem ownValue_agree (field : String) :
    Agree (fun value => (value.isNone, revision.value value)) (ownValue field first)
      (ownValue field second) := by
  have found := members.get? "value"
  rw [Revision.relates_value] at found
  unfold ownValue
  cases one : first.get? "value" <;> cases another : second.get? "value" <;>
    rw [one, another] at found <;> cases found
  · exact .returned rfl
  · rename_i confused
    rcases confused with (rfl | ⟨structured, structuredToo⟩) | ⟨bindable, bindableToo, same⟩
    · rename_i value
      cases value with
      | array items => exact .refused _ _
      | object members => exact .refused _ _
      | _ => exact .returned rfl
    · rename_i value other
      cases value <;> cases structured <;> cases other <;> cases structuredToo <;>
        exact .refused _ _
    · rename_i value other
      cases value <;> cases bindable <;> cases other <;> cases bindableToo <;>
        exact .returned (Prod.ext rfl same)

theorem groupWord_related :
    Option.Rel (fun member other => member.1 = other.1 ∧ member.2.Similar other.2)
      (first.reverse.find? fun member => groupWords.contains member.1)
      (second.reverse.find? fun member => groupWords.contains member.1) := by
  have word := Json.Members.Related.find? (List.rel_reverse members) groupWords.contains
  generalize second.reverse.find? _ = another at word ⊢
  cases one : first.reverse.find? fun member => groupWords.contains member.1 with
  | none =>
    rw [one] at word
    cases word
    exact .none
  | some member =>
    rw [one] at word
    have known := List.find?_some one
    have plain : member.1 ≠ "value" := by
      intro named
      rw [named] at known
      exact absurd known (by decide)
    cases word with
    | some held =>
      rw [Revision.relates_of_ne plain] at held
      exact .some held

variable {hint other : TypeHint} (blind : revision.hint hint = revision.hint other)

include blind

/-- The test that an object describes is the same once it is revised. -/
theorem ownCondition_agree {field field' : Json} (similar : field.Similar field')
    (connective : Connective) :
    Agree (Condition.revise revision) (ownCondition hint field first connective)
      (ownCondition other field' second connective) := by
  have comparator := firstOf_related comparatorKeys (by decide) members
  have name := firstOf_related hintKeys (by decide) members
  refine (textAt_agree similar).bind_of_same fun field => ?_
  refine (mapM_textAt_agree comparator).bind_of_same fun comparator => ?_
  refine (ownValue_agree members field).bind fun value value' same => ?_
  obtain ⟨missing, revised⟩ := Prod.mk.inj same
  rw [missing]
  split
  · exact .refused _ _
  · refine (mapM_textAt_agree name).bind_of_same fun name => .returned ?_
    cases name <;> simp only [Condition.revise, revised, Option.map_none, Option.map_some,
      Option.getD_none, Option.getD_some, blind]

/-- The shape with its test revised. -/
def Shape.revise (revision : Revision) : Shape → Shape
  | .leaf condition => .leaf (condition.revise revision)
  | shape => shape

/-- Related members have the same shape once its test is revised, or have none. -/
theorem Shape.ofMembers?_agree :
    Option.Rel (Agree (Shape.revise revision)) (Shape.ofMembers? hint first)
      (Shape.ofMembers? other second) := by
  have word := groupWord_related members
  have field := members.get? "field"
  have sql := members.get? "sql"
  rw [Revision.relates_of_ne (by decide)] at field sql
  unfold Shape.ofMembers?
  rw [members.any isChildrenKey]
  generalize first.reverse.find? _ = one at word ⊢
  generalize second.reverse.find? _ = another at word ⊢
  cases word with
  | @some member member' held =>
    obtain ⟨key, value⟩ := member
    obtain ⟨key', value'⟩ := member'
    obtain ⟨rfl, held⟩ := held
    exact .some <| (textAt_agree held).bind_of_same fun token =>
      (ofToken_agree token).bind_of_same fun _ => .returned rfl
  | none =>
    dsimp only
    split
    · exact .some <| (ownConnective_agree members).bind_of_same fun _ => .returned rfl
    · generalize first.get? "field" = one at field ⊢
      generalize second.get? "field" = another at field ⊢
      cases field with
      | some field =>
        exact .some <| (ownConnective_agree members).bind_of_same fun connective =>
          (ownCondition_agree members blind field connective).bind fun _ _ same =>
            .returned (congrArg Shape.leaf same)
      | none =>
        generalize first.get? "sql" = one at sql ⊢
        generalize second.get? "sql" = another at sql ⊢
        cases sql with
        | none => exact .none
        | some sql =>
          exact .some <| (ownConnective_agree members).bind_of_same fun _ =>
            (textAt_agree sql).bind_of_same fun _ => .returned rfl

end Shapes

section Entries

variable {revision : Revision}
  {labelled labelled' children children' : Unit → Except Error PredicateTree}

theorem Shape.build_agree {shape shape' : Shape}
    (same : shape.revise revision = shape'.revise revision)
    (entries : Agree (PredicateTree.revise revision) (labelled ()) (labelled' ()))
    (items : Agree (PredicateTree.revise revision) (children ()) (children' ())) :
    Agree (Predicate.revise revision) (shape.build labelled children)
      (shape'.build labelled' children') := by
  cases shape with
  | labelled connective =>
    cases shape' <;> cases same
    exact entries.bind fun _ _ same => .returned (congrArg (Predicate.group connective) same)
  | children connective =>
    cases shape' <;> cases same
    exact items.bind fun _ _ same => .returned (congrArg (Predicate.group connective) same)
  | leaf condition =>
    cases shape' with
    | leaf condition' => exact .returned (congrArg Predicate.leaf (Shape.leaf.inj same))
    | _ => contradiction
  | raw sql connective =>
    cases shape' <;> cases same
    exact .returned rfl

theorem cons_agree {first first' : Except Error Predicate}
    {others others' : Except Error PredicateTree}
    (head : Agree (Predicate.revise revision) first first')
    (tail : Agree (PredicateTree.revise revision) others others') :
    Agree (PredicateTree.revise revision) (do let node ← first; return node :: (← others))
      (do let node ← first'; return node :: (← others')) :=
  head.bind fun _ _ same => tail.bind fun _ _ equal => .returned <| by
    rw [PredicateTree.revise, PredicateTree.revise, same, equal]

end Entries

end Predicate

end SelectCompiler
