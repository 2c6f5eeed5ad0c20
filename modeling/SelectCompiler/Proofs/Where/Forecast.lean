import SelectCompiler.Proofs.Predicate.Canonical
import SelectCompiler.Proofs.Where.Equality

/-!
The number of parameters of a filter, counted before it is compiled. Every test with a value is
counted, also one that has null written out, which the compiler takes no index for. So the count is
too large by the number of these tests. Neither the constructors nor the reader make any.
-/

namespace SelectCompiler

/-- The test has null written out as its value. -/
def Condition.holdsNull (condition : Condition) : Bool :=
  condition.value = some .null

theorem Condition.holdsNull_compare (field comparator : String) (value : Json) :
    (compare field comparator value).holdsNull = false := by
  by_cases null : value = .null <;> simp [holdsNull, compare, null]

mutual
theorem Predicate.parameterCount_eq_countP : ∀ node : Predicate,
    node.parameterCount = node.leaves.countP fun test => test.value.isSome
  | .leaf _ => by rw [Predicate.parameterCount, Predicate.leaves, List.countP_singleton]
  | .raw _ _ => rfl
  | .group _ children => PredicateTree.parameterCount_eq_countP children

/-- The tests of a filter that have a value are counted, at every depth. -/
theorem PredicateTree.parameterCount_eq_countP : ∀ nodes : List Predicate,
    PredicateTree.parameterCount nodes =
      (PredicateTree.leaves nodes).countP fun test => test.value.isSome
  | [] => rfl
  | node :: rest => by
    rw [PredicateTree.parameterCount, PredicateTree.leaves, List.countP_append,
      node.parameterCount_eq_countP, PredicateTree.parameterCount_eq_countP rest]
end

/-- Of the tests with scalar values those that have null do not bind it. -/
theorem countP_isSome_of_scalar {tests : List Condition}
    (scalar : ∀ test ∈ tests, test.IsScalar) :
    (tests.countP fun test => test.value.isSome) =
      tests.countP Condition.isBound + tests.countP Condition.holdsNull := by
  induction tests with
  | nil => rfl
  | cons test rest ih =>
    obtain ⟨own, others⟩ := List.forall_mem_cons.mp scalar
    have counted : (if test.value.isSome then 1 else 0) =
        (if test.isBound then 1 else 0) + if test.holdsNull then 1 else 0 := by
      cases given : test.value with
      | none => simp [Condition.isBound, Condition.holdsNull, given]
      | some value =>
        have flat := own value given
        cases value <;> simp_all [Condition.isBound, Condition.holdsNull, Json.isBindable,
          Json.isStructured]
    rw [List.countP_cons, List.countP_cons, List.countP_cons, ih others, counted]
    omega

theorem Predicate.describesOnly_filled (hint : TypeHint) :
    DescribesOnly hint fun test => test.holdsNull = false := by
  intro field members connective test described
  obtain ⟨_, _, read, _⟩ := ownCondition_eq_ok_iff.mp described
  obtain ⟨_, missing⟩ | ⟨scalar, _, bindable, given⟩ := ownValue_eq_ok_iff.mp read
  · simp [Condition.holdsNull, missing]
  · cases scalar <;> simp_all [Condition.holdsNull, Json.isBindable]

namespace Where

variable {tree : PredicateTree} {offset : Nat} {clause : Clause}

/-- No test of a filter that has a text holds a list or an object. -/
theorem isScalar_of_compile (compiled : compile tree offset = .ok (some clause)) :
    ∀ test ∈ PredicateTree.leaves tree, test.IsScalar := by
  intro test leaf value given
  obtain ⟨_, siblings⟩ := compile_eq_some_iff.mp compiled
  obtain ⟨before, after, split⟩ := List.append_of_mem leaf
  obtain ⟨_, own, _⟩ := compileSiblings_holds tree siblings before test after split
  obtain ⟨_, ⟨scalar, bound, bindable, _⟩ | ⟨none | null, _⟩⟩ := compileCondition_eq_ok_iff.mp own
  · obtain rfl := Option.some.inj (given.symm.trans bound)
    cases value <;> simp_all [Json.isBindable, Json.isStructured]
  · exact absurd (given.symm.trans none) (Option.some_ne_none _)
  · obtain rfl := Option.some.inj (given.symm.trans null)
    rfl

/-- The indices that a clause takes are as many as its parameters. The count taken ahead is larger
by the number of tests that have null written out, so it is right exactly if there are none; there
are none in what the reader returns, and the constructors make none. -/
theorem compile_counted (compiled : compile tree offset = .ok (some clause)) :
    clause.next = offset + clause.parameters.length ∧
      PredicateTree.parameterCount tree =
        clause.parameters.length + (PredicateTree.leaves tree).countP Condition.holdsNull ∧
      (PredicateTree.parameterCount tree = clause.parameters.length ∧
          PredicateTree.parameterCount tree = clause.next - offset ↔
        ∀ test ∈ PredicateTree.leaves tree, test.value ≠ some .null) ∧
      (∀ hint document, PredicateTree.read hint document = .ok tree →
        ∀ test ∈ PredicateTree.leaves tree, test.value ≠ some .null) ∧
      ∀ field comparator value, (Condition.compare field comparator value).value ≠ some .null := by
  obtain ⟨_, siblings⟩ := compile_eq_some_iff.mp compiled
  obtain ⟨next, length⟩ := (compileSiblings_numbered tree siblings).counts
  have allocated : clause.next = offset + clause.parameters.length := by rw [next, length]
  have counted : PredicateTree.parameterCount tree =
      clause.parameters.length + (PredicateTree.leaves tree).countP Condition.holdsNull := by
    rw [PredicateTree.parameterCount_eq_countP,
      countP_isSome_of_scalar (isScalar_of_compile compiled), length]
  have without (test : Condition) : test.value ≠ some .null ↔ test.holdsNull = false := by
    rw [Condition.holdsNull, decide_eq_false_iff_not]
  simp only [without]
  refine ⟨allocated, counted, ?_, fun hint document read =>
    PredicateTree.read_every (Predicate.describesOnly_filled hint) document tree read,
    Condition.holdsNull_compare⟩
  have absent : (PredicateTree.leaves tree).countP Condition.holdsNull = 0 ↔
      ∀ test ∈ PredicateTree.leaves tree, test.holdsNull = false := by
    simp only [List.countP_eq_zero, Bool.not_eq_true]
  rw [← absent]
  omega

/-- Two values and, in a group, a test that needs none and has null written out. -/
def countedFilter : PredicateTree :=
  [.leaf (.eq "a.x" (.ofNat 1)), .raw "a.y > 0" .and,
    .group .or [.leaf ⟨"a.z", "IS NULL", some .null, .string, .and⟩,
      .leaf (.compare "a.z" ">" (.string "m")), .leaf (.selfContained "a.w" "IS NULL")]]

theorem compile_counted_countedFilter :
    ∃ clause, compile countedFilter 7 = .ok (some clause) ∧ clause.next = 9 ∧
      clause.parameters.length = 2 ∧ PredicateTree.parameterCount countedFilter = 2 + 1 := by
  have compiled : compile countedFilter 7 = .ok (some
      ⟨"a.x = %7 AND a.y > 0 OR (a.z IS NULL AND a.z > %8 AND a.w IS NULL)",
        [⟨7, .ofNat 1, .string⟩, ⟨8, .string "m", .string⟩], 9⟩) := by decide +kernel
  obtain ⟨_, counted, _⟩ := compile_counted compiled
  exact ⟨_, compiled, rfl, rfl, counted⟩

/-- A test with null written out is counted, and takes no index and no parameter. -/
theorem null_counted :
    PredicateTree.parameterCount [.leaf ⟨"a.x", "IS NULL", some .null, .string, .and⟩] = 1 ∧
      compile [.leaf ⟨"a.x", "IS NULL", some .null, .string, .and⟩] 0 =
        .ok (some ⟨"a.x IS NULL", [], 0⟩) :=
  ⟨by decide, by decide +kernel⟩

end Where

end SelectCompiler
