import SelectCompiler.Proofs.Predicate.Objects
import SelectCompiler.Proofs.Where.Numbering

/-!
Tests for equality. In the text of a filter every test has its own place, between the text of the
tests before it and a seam. There an equality stands with its placeholder, unless its comparator is
written out and its value is missing: then the sign has nothing behind it.
-/

namespace SelectCompiler

/-- The test is for equality: the comparator says so, or there is none. -/
def Condition.IsEquality (condition : Condition) : Prop :=
  Text.trim condition.comparator = "" ∨ Text.trim condition.comparator = "="

/-- The test is for equality by its comparator, and there is nothing to compare with. -/
def Condition.IsBare (condition : Condition) : Prop :=
  Text.trim condition.comparator = "=" ∧ (condition.value = none ∨ condition.value = some .null)

theorem Condition.isBare_compare_iff {field comparator : String} {value : Json} :
    (compare field comparator value).IsBare ↔ Text.trim comparator = "=" ∧ value = .null := by
  by_cases null : value = .null <;> simp [IsBare, compare, null]

theorem Condition.isBare_eq_iff {field : String} {value : Json} :
    (eq field value).IsBare ↔ value = .null := by
  have sign : Text.trim "=" = "=" := by decide +kernel
  rw [eq, isBare_compare_iff, and_iff_right sign]

namespace Where

section Splices

/-- What can stand behind the text of a test: nothing, the end of its group, or the connective of
the next predicate. -/
inductive Seam : String → Prop where
  | nothing : Seam ""
  | closing (rest : String) : Seam (")" ++ rest)
  | next (connective : Connective) (rest : String) : Seam (" " ++ connective.sql ++ " " ++ rest)

theorem Seam.append {trail rest : String} (seam : Seam trail) (further : Seam rest) :
    Seam (trail ++ rest) := by
  cases seam with
  | nothing => rwa [String.empty_append]
  | closing inner =>
    rw [String.append_assoc]
    exact .closing _
  | next connective inner =>
    rw [String.append_assoc]
    exact .next connective _

/-- The piece stands in the clause with a seam behind it, and its parameters come after `position`
others. -/
def Clause.Splices (clause piece : Clause) (position : Nat) : Prop :=
  ∃ lead trail earlier later, Seam trail ∧ clause.sql = lead ++ piece.sql ++ trail ∧
    clause.parameters = earlier ++ piece.parameters ++ later ∧ earlier.length = position

namespace Clause.Splices

variable {clause piece other : Clause} {position : Nat}

theorem refl (piece : Clause) : piece.Splices piece 0 :=
  ⟨"", "", [], [], .nothing, by simp, by simp, rfl⟩

theorem behind (lead : String) (splices : clause.Splices piece position) :
    (clause.behind lead).Splices piece position := by
  obtain ⟨front, trail, earlier, later, seam, text, parameters, count⟩ := splices
  exact ⟨lead ++ front, trail, earlier, later, seam,
    by simp only [Clause.behind, text, String.append_assoc], parameters, count⟩

theorem parenthesized (splices : clause.Splices piece position) :
    clause.parenthesized.Splices piece position := by
  obtain ⟨front, trail, earlier, later, seam, text, parameters, count⟩ := splices
  exact ⟨"(" ++ front, trail ++ ")", earlier, later, seam.append (.closing ""),
    by simp only [Clause.parenthesized, text, String.append_assoc], parameters, count⟩

theorem before (splices : clause.Splices piece position) (seam : Seam other.sql) :
    (clause.append other).Splices piece position := by
  obtain ⟨front, trail, earlier, later, inner, text, parameters, count⟩ := splices
  exact ⟨front, trail ++ other.sql, earlier, later ++ other.parameters, inner.append seam,
    by simp only [Clause.append, text, String.append_assoc],
    by simp only [Clause.append, parameters, List.append_assoc], count⟩

theorem after (splices : clause.Splices piece position) :
    (other.append clause).Splices piece (other.parameters.length + position) := by
  obtain ⟨front, trail, earlier, later, inner, text, parameters, count⟩ := splices
  exact ⟨other.sql ++ front, trail, other.parameters ++ earlier, later, inner,
    by simp only [Clause.append, text, String.append_assoc],
    by simp only [Clause.append, parameters, List.append_assoc],
    by rw [List.length_append, count]⟩

end Clause.Splices

/-- Each of the tests has text, and this stands in the clause in its turn. -/
def Clause.Holds (clause : Clause) (index : Nat) (tests : List Condition) : Prop :=
  ∀ before test after, tests = before ++ test :: after →
    ∃ piece, compileCondition (index + before.countP Condition.isBound) test = .ok piece ∧
      clause.Splices piece (before.countP Condition.isBound)

variable {index : Nat} {clause following : Clause} {tests more : List Condition}

theorem Clause.holds_nil : clause.Holds index [] := by
  intro before test after split
  simp at split

/-- What is done to a clause does no harm to what stands in it. -/
theorem Clause.Holds.mono (holds : clause.Holds index tests)
    (kept : ∀ piece position, clause.Splices piece position → following.Splices piece position) :
    following.Holds index tests := by
  intro before test after split
  obtain ⟨piece, compiled, splices⟩ := holds before test after split
  exact ⟨piece, compiled, kept piece _ splices⟩

theorem Clause.Holds.append (first : clause.Holds index tests)
    (second : following.Holds clause.next more) (seam : Seam following.sql)
    (next : clause.next = index + tests.countP Condition.isBound)
    (count : clause.parameters.length = tests.countP Condition.isBound) :
    (clause.append following).Holds index (tests ++ more) := by
  intro before test after split
  -- The test is one of the second list, and then behind all of the first, or one of the first.
  obtain ⟨between, rfl, here⟩ | ⟨between, here, later⟩ := List.append_eq_append_iff.mp split
  · obtain ⟨piece, compiled, splices⟩ := second between test after here
    refine ⟨piece, ?_, ?_⟩
    · rwa [List.countP_append, ← Nat.add_assoc, ← next]
    · rw [List.countP_append, ← count]
      exact splices.after
  · cases between with
    | nil =>
      rw [List.append_nil] at here
      subst here
      obtain ⟨piece, compiled, splices⟩ := second [] test after later.symm
      rw [List.countP_nil, Nat.add_zero, next] at compiled
      refine ⟨piece, compiled, ?_⟩
      rw [← count]
      exact splices.after
    | cons head rest =>
      obtain ⟨rfl, rfl⟩ := List.cons.inj later
      obtain ⟨piece, compiled, splices⟩ := first before test rest here
      exact ⟨piece, compiled, splices.before seam⟩

theorem seam_compileFollowing {nodes : List Predicate}
    (compiled : compileFollowing index nodes = .ok clause) : Seam clause.sql := by
  cases nodes with
  | nil =>
    rw [compileFollowing_nil_eq_ok_iff.mp compiled]
    exact .nothing
  | cons node rest =>
    obtain ⟨first, following, _, _, rfl⟩ := compileFollowing_cons_eq_ok_iff.mp compiled
    rw [Clause.append, Clause.behind, String.append_assoc]
    exact .next _ _

theorem compileCondition_holds {condition : Condition}
    (compiled : compileCondition index condition = .ok clause) :
    clause.Holds index [condition] := by
  intro before test after split
  obtain ⟨rfl, here⟩ | ⟨_, _, none⟩ := List.cons_eq_append_iff.mp split
  · obtain ⟨rfl, _⟩ := List.cons.inj here
    exact ⟨clause, compiled, .refl clause⟩
  · simp at none

/-- A clause has as many parameters as there are bound tests, and the next index comes behind
them. -/
theorem Numbered.counts {bound : List Nat} (numbered : Numbered index
    (tests.filter Condition.isBound) bound clause) :
    clause.next = index + tests.countP Condition.isBound ∧
      clause.parameters.length = tests.countP Condition.isBound := by
  rw [List.countP_eq_length_filter]
  refine ⟨numbered.next, ?_⟩
  rw [← List.length_map, numbered.indices, List.length_range']

mutual
theorem compileNode_holds {index : Nat} {clause : Clause} : ∀ node : Predicate,
    compileNode index node = .ok clause → clause.Holds index node.leaves
  | .leaf _, compiled => compileCondition_holds compiled
  | .raw _ _, _ => Clause.holds_nil
  | .group _ children, compiled => by
    obtain ⟨_, inner, siblings, _, rfl⟩ := compileNode_group_eq_ok_iff.mp compiled
    exact (compileSiblings_holds children siblings).mono fun _ _ => .parenthesized

/-- The text of every test stands in the text of the filter. -/
theorem compileSiblings_holds {index : Nat} {clause : Clause} : ∀ nodes : List Predicate,
    compileSiblings index nodes = .ok clause → clause.Holds index (PredicateTree.leaves nodes)
  | [], _ => Clause.holds_nil
  | node :: rest, compiled => by
    obtain ⟨first, following, head, tail, rfl⟩ := compileSiblings_cons_eq_ok_iff.mp compiled
    obtain ⟨next, count⟩ := (compileNode_numbered node head).counts
    exact (compileNode_holds node head).append (compileFollowing_holds rest tail)
      (seam_compileFollowing tail) next count

theorem compileFollowing_holds {index : Nat} {clause : Clause} : ∀ nodes : List Predicate,
    compileFollowing index nodes = .ok clause → clause.Holds index (PredicateTree.leaves nodes)
  | [], _ => Clause.holds_nil
  | node :: rest, compiled => by
    obtain ⟨first, following, head, tail, rfl⟩ := compileFollowing_cons_eq_ok_iff.mp compiled
    obtain ⟨next, count⟩ := (compileNode_numbered node head).counts
    have behind : (first.behind (" " ++ node.connective.sql ++ " ")).Holds index node.leaves :=
      (compileNode_holds node head).mono fun _ _ => .behind _
    exact behind.append (compileFollowing_holds rest tail) (seam_compileFollowing tail) next count
end

end Splices

/-- The test stands in the text with its placeholder, and its value is the parameter of that index
at this position. -/
def Clause.Binds (clause : Clause) (offset position : Nat) (test : Condition) : Prop :=
  (∃ lead trail, Seam trail ∧ clause.sql = lead ++ (Text.trim test.field ++ " = "
    ++ Placeholder.write (offset + position)) ++ trail) ∧
  ∃ value, test.value = some value ∧
    clause.parameters[position]? = some ⟨offset + position, value, test.hint⟩

/-- The test stands in the text with nothing behind its sign. -/
def Clause.LeavesBare (clause : Clause) (test : Condition) : Prop :=
  ∃ lead trail, Seam trail ∧ clause.sql = lead ++ (Text.trim test.field ++ " =") ++ trail

theorem comparison_of_isEquality {test : Condition} (equality : test.IsEquality) :
    comparison test.comparator = "=" := by
  unfold comparison
  obtain blank | sign := equality
  · rw [blank]
    rfl
  · rw [sign]
    rfl

/-- An equality in compiled text binds its value, or it is bare. -/
theorem Clause.binds_or_leavesBare {tree : PredicateTree} {offset : Nat} {clause : Clause}
    (compiled : compile tree offset = .ok (some clause)) {before after : List Condition}
    {test : Condition} (split : PredicateTree.leaves tree = before ++ test :: after)
    (equality : test.IsEquality) :
    ¬test.IsBare ∧ clause.Binds offset (before.countP Condition.isBound) test ∨
      test.IsBare ∧ clause.LeavesBare test := by
  obtain ⟨_, siblings⟩ := compile_eq_some_iff.mp compiled
  obtain ⟨piece, own, lead, trail, earlier, later, seam, text, parameters, count⟩ :=
    compileSiblings_holds tree siblings before test after split
  obtain ⟨_, ⟨value, given, bindable, _, rfl⟩ | ⟨missing, visible, rfl⟩⟩ :=
    compileCondition_eq_ok_iff.mp own
  · have bound : ¬test.IsBare := by
      rintro ⟨_, none | null⟩
      · exact Option.some_ne_none value (given.symm.trans none)
      · rw [Option.some.inj (given.symm.trans null)] at bindable
        cases bindable
    refine .inl ⟨bound, ⟨lead, trail, seam, ?_⟩, value, given, ?_⟩
    · simp only [text, boundClause, comparison_of_isEquality equality, String.append_assoc,
        String.reduceAppend]
    · rw [parameters, ← count]
      simp [boundClause, count]
  · have sign : Text.trim test.comparator = "=" := equality.resolve_left visible
    refine .inr ⟨⟨sign, missing⟩, lead, trail, seam, ?_⟩
    simp only [text, plainClause, Clause.text, sign, String.append_assoc, String.reduceAppend]

end Where

section Operands

open Predicate

/-- The object names the sign of equality as its comparator and no value to compare with. -/
def Json.Members.LacksOperand (members : Json.Members) : Prop :=
  (∃ comparator, firstOf comparatorKeys members = some (.string comparator) ∧
    Text.trim comparator = "=") ∧
  (members.get? "value" = none ∨ members.get? "value" = some .null)

/-- The test of an object is bare if the object lacks what it is to compare with. -/
theorem isBare_iff_lacksOperand {hint : TypeHint} {test : Condition} {members : Json.Members}
    (described : ownTest hint members = .ok test) : test.IsBare ↔ members.LacksOperand := by
  unfold ownTest at described
  split at described
  · obtain ⟨_, _, described⟩ := bind_eq_ok_iff.mp described
    obtain ⟨_, _, value, ⟨comparator, named, present, written⟩, _⟩ :=
      ownCondition_eq_ok_iff.mp described
    unfold Condition.IsBare Json.Members.LacksOperand
    obtain ⟨missing, none⟩ | ⟨scalar, found, bindable, given⟩ := ownValue_eq_ok_iff.mp value
    · rw [none, Option.isSome_none] at present
      obtain ⟨text, rfl⟩ := Option.isSome_iff_exists.mp (present.resolve_left Bool.false_ne_true)
      have named : firstOf comparatorKeys members = some (.string text) := by
        cases given : firstOf comparatorKeys members with
        | none =>
          rw [given] at named
          cases named
        | some token =>
          rw [given] at named
          obtain ⟨_, isText, same⟩ := map_eq_ok_iff.mp named
          rw [textAt_eq_ok_iff.mp isText, Option.some.inj same]
      simp [named, none, missing, written]
    · have filled : scalar ≠ .null := by
        rintro rfl
        cases bindable
      simp [found, given, filled]
  · cases described

end Operands

/-- In the text of a filter a test for equality has a placeholder and binds its value, unless it
names the sign itself and has no value: then nothing stands behind the sign. The constructors make
such a test from null alone, the reader from an object that names the sign and no value alone. -/
theorem Where.compile_equality {tree : PredicateTree} {offset : Nat} {clause : Clause}
    (compiled : compile tree offset = .ok (some clause)) :
    (∀ before test after, PredicateTree.leaves tree = before ++ test :: after → test.IsEquality →
      ¬test.IsBare ∧ clause.Binds offset (before.countP Condition.isBound) test ∨
        test.IsBare ∧ clause.LeavesBare test) ∧
    (∀ field value, (Condition.eq field value).IsBare ↔ value = .null) ∧
    (∀ field comparator value, (Condition.compare field comparator value).IsBare ↔
      Text.trim comparator = "=" ∧ value = .null) ∧
    ∀ hint document, PredicateTree.read hint document = .ok tree →
      ∀ test ∈ PredicateTree.leaves tree, ∃ members ∈ document.objects,
        Predicate.ownTest hint members = .ok test ∧ (test.IsBare ↔ members.LacksOperand) := by
  refine ⟨fun before test after split equality =>
    Clause.binds_or_leavesBare compiled split equality, fun _ _ => Condition.isBare_eq_iff,
    fun _ _ _ => Condition.isBare_compare_iff, fun hint document read test leaf => ?_⟩
  obtain ⟨members, inside, described⟩ := PredicateTree.exists_object_of_read read leaf
  exact ⟨members, inside, described, isBare_iff_lacksOperand described⟩

namespace BareEquality

/-- A test with a value, and in a group one that names the sign alone. -/
def document : Json :=
  .array [.object [("field", .string "a.x"), ("value", .ofNat 1)],
    .object [("OR", .array [.object [("field", .string "a.y"), ("comp", .string " = ")],
      .object [("sql", .string "a.z IS NULL")]])]]

def bound : Condition :=
  ⟨"a.x", "=", some (.ofNat 1), .integer, .and⟩

def bare : Condition :=
  ⟨"a.y", " = ", none, .integer, .and⟩

def tree : PredicateTree :=
  [.leaf bound, .group .or [.leaf bare, .raw "a.z IS NULL" .and]]

end BareEquality

open BareEquality in
theorem Where.compile_equality_besideBare :
    ∃ clause, PredicateTree.read .integer document = .ok tree ∧
      compile tree 3 = .ok (some clause) ∧
      clause.sql = "a.x = %3 OR (a.y = AND a.z IS NULL)" ∧
      clause.Binds 3 0 bound ∧ clause.LeavesBare bare ∧
      ∃ members ∈ document.objects, members.LacksOperand := by
  have read : PredicateTree.read .integer document = .ok tree := by decide +kernel
  have compiled : compile tree 3 = .ok (some
      ⟨"a.x = %3 OR (a.y = AND a.z IS NULL)", [⟨3, .ofNat 1, .integer⟩], 4⟩) := by
    decide +kernel
  obtain ⟨placed, _, _, described⟩ := compile_equality compiled
  have valued : ¬bound.IsBare := by simp [Condition.IsBare, bound, Json.ofNat]
  have valueless : bare.IsBare := ⟨by decide +kernel, .inl rfl⟩
  obtain ⟨_, binds⟩ | ⟨unlike, _⟩ := placed [] bound [bare] rfl (.inr (by decide +kernel))
  · obtain ⟨unlike, _⟩ | ⟨_, leaves⟩ := placed [bound] bare [] rfl (.inr (by decide +kernel))
    · exact absurd valueless unlike
    · obtain ⟨members, inside, _, iff⟩ := described .integer document read bare (.tail _ (.head _))
      exact ⟨_, read, compiled, rfl, binds, leaves, members, inside, iff.mp valueless⟩
  · exact absurd unlike valued

/-- Equality with null has nothing behind its sign, and so has a test read with the sign alone. -/
theorem Where.compile_eq_null :
    (Condition.eq "name" .null).IsEquality ∧
      compile [.leaf (.eq "name" .null)] 0 = .ok (some ⟨"name =", [], 0⟩) ∧
      PredicateTree.read .string
          (.array [.object [("field", .string "name"), ("comp", .string "=")]]) =
        .ok [.leaf (.eq "name" .null)] :=
  ⟨.inr (by decide +kernel), by decide +kernel, by decide +kernel⟩

end SelectCompiler
