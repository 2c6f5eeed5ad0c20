import SelectCompiler.Proofs.Where.Numbering
import SelectCompiler.Proofs.Where.Trimmed

/-!
When a filter has no text, and why. Its predicates are gone through from left to right, a group
before what is in it, and the first one that is at fault by itself says what the fault is. Nothing
else can be wrong: what is in a group never comes out blank.
-/

namespace SelectCompiler

mutual
/-- A predicate and all that is inside it, a group before what is in it. -/
def Predicate.nodes : Predicate → List Predicate
  | .leaf condition => [.leaf condition]
  | .raw sql connective => [.raw sql connective]
  | .group connective children => .group connective children :: PredicateTree.nodes children

def PredicateTree.nodes : List Predicate → List Predicate
  | [] => []
  | node :: rest => node.nodes ++ PredicateTree.nodes rest
end

namespace Predicate

/-- The predicate takes an index for itself. -/
def isBound : Predicate → Bool
  | leaf condition => condition.isBound
  | _ => false

/-- There is nothing wrong with the predicate by itself, whatever is inside it. -/
def Sound : Predicate → Prop
  | leaf condition =>
    Text.trim condition.field ≠ "" ∧
      (∀ value, condition.value = some value → value.isStructured = false) ∧
      (condition.value = none ∨ condition.value = some .null →
        Text.trim condition.comparator ≠ "")
  | raw sql _ => Text.trim sql ≠ ""
  | group _ children => children ≠ []

/-- What is wrong with a predicate by itself when `index` is the next free one. A blank field comes
before any other fault of a test. -/
inductive Faulty (index : Nat) : Predicate → Error → Prop where
  | blankField {condition : Condition} (blank : Text.trim condition.field = "") :
      Faulty index (.leaf condition) (.emptyClause .conditionField)
  | structuredValue {condition : Condition} {value : Json}
      (named : Text.trim condition.field ≠ "") (given : condition.value = some value)
      (structured : value.isStructured = true) :
      Faulty index (.leaf condition)
        (.malformedPredicate (.structuredValue (Text.trim condition.field)))
  | numberingOverflow {condition : Condition} (named : Text.trim condition.field ≠ "")
      (bound : condition.isBound = true) (last : Text.wordSize ≤ index + 1) :
      Faulty index (.leaf condition) (.configuration (.numberingOverflow index))
  | nothingToCompare {condition : Condition} (named : Text.trim condition.field ≠ "")
      (missing : condition.value = none ∨ condition.value = some .null)
      (blank : Text.trim condition.comparator = "") :
      Faulty index (.leaf condition)
        (.malformedPredicate (.nothingToCompare (Text.trim condition.field)))
  | blankRaw {sql : String} {connective : Connective} (blank : Text.trim sql = "") :
      Faulty index (.raw sql connective) (.emptyClause .rawCondition)
  | emptyGroup {connective : Connective} :
      Faulty index (.group connective []) (.emptyClause .groupChildren)

end Predicate

/-- The fault of the first predicate of a list that is at fault. Every one before it that binds a
value has taken an index. -/
inductive FirstFault : Nat → List Predicate → Error → Prop where
  | here {index : Nat} {node : Predicate} {rest : List Predicate} {fault : Error}
      (faulty : node.Faulty index fault) : FirstFault index (node :: rest) fault
  | later {index : Nat} {node : Predicate} {rest : List Predicate} {fault : Error}
      (blameless : ∀ other, ¬node.Faulty index other)
      (found : FirstFault (index + if node.isBound then 1 else 0) rest fault) :
      FirstFault index (node :: rest) fault

variable {index : Nat} {node : Predicate} {nodes first second : List Predicate} {fault : Error}

theorem FirstFault.cons_iff :
    FirstFault index (node :: nodes) fault ↔
      node.Faulty index fault ∨ ((∀ other, ¬node.Faulty index other) ∧
        FirstFault (index + if node.isBound then 1 else 0) nodes fault) := by
  constructor
  · intro found
    cases found with
    | here faulty => exact .inl faulty
    | later blameless found => exact .inr ⟨blameless, found⟩
  · rintro (faulty | ⟨blameless, found⟩)
    · exact .here faulty
    · exact .later blameless found

theorem FirstFault.not_nil : ¬FirstFault index [] fault := nofun

theorem FirstFault.singleton_iff : FirstFault index [node] fault ↔ node.Faulty index fault := by
  rw [cons_iff, or_iff_left]
  exact fun later => not_nil later.2

/-- The first fault is one that a predicate of the list has by itself. -/
theorem FirstFault.exists_faulty (found : FirstFault index nodes fault) :
    ∃ node ∈ nodes, ∃ later, node.Faulty later fault := by
  induction found with
  | @here index node rest fault faulty => exact ⟨node, List.mem_cons_self, index, faulty⟩
  | later _ _ ih =>
    obtain ⟨node, member, later, faulty⟩ := ih
    exact ⟨node, List.mem_cons_of_mem _ member, later, faulty⟩

theorem FirstFault.append_iff :
    FirstFault index (first ++ second) fault ↔
      FirstFault index first fault ∨ ((∀ other, ¬FirstFault index first other) ∧
        FirstFault (index + first.countP Predicate.isBound) second fault) := by
  induction first generalizing index with
  | nil => simp [FirstFault.not_nil]
  | cons node rest ih =>
    have count : index + (node :: rest).countP Predicate.isBound =
        index + (if node.isBound then 1 else 0) + rest.countP Predicate.isBound := by
      rw [List.countP_cons]
      omega
    simp only [List.cons_append, cons_iff, ih, count]
    grind

/-- A predicate is without fault if it is sound and an index is left for its value. -/
theorem Predicate.blameless_iff :
    (∀ fault, ¬node.Faulty index fault) ↔
      node.Sound ∧ (node.isBound = true → index + 1 < Text.wordSize) := by
  constructor
  · intro blameless
    cases node with
    | leaf condition =>
      have named : Text.trim condition.field ≠ "" := fun blank => blameless _ (.blankField blank)
      refine ⟨⟨named, fun value given => ?_, fun missing blank => ?_⟩, fun bound => ?_⟩
      · rw [Bool.eq_false_iff]
        exact fun structured => blameless _ (.structuredValue named given structured)
      · exact blameless _ (.nothingToCompare named missing blank)
      · exact Nat.lt_of_not_le fun last => blameless _ (.numberingOverflow named bound last)
    | raw sql connective => exact ⟨fun blank => blameless _ (.blankRaw blank), nofun⟩
    | group connective children =>
      refine ⟨?_, nofun⟩
      rintro rfl
      exact blameless _ .emptyGroup
  · rintro ⟨sound, left⟩ fault faulty
    cases faulty with
    | blankField blank => exact sound.1 blank
    | structuredValue _ given structured =>
      rw [sound.2.1 _ given] at structured
      contradiction
    | numberingOverflow _ bound last => exact Nat.not_lt.mpr last (left bound)
    | nothingToCompare _ missing blank => exact sound.2.2 missing blank
    | blankRaw blank => exact sound blank
    | emptyGroup => exact sound rfl

/-- No predicate of a list is at fault if all are sound and the indices suffice. -/
theorem FirstFault.none_iff (word : index < Text.wordSize) :
    (∀ fault, ¬FirstFault index nodes fault) ↔
      (∀ node ∈ nodes, node.Sound) ∧
        index + nodes.countP Predicate.isBound < Text.wordSize := by
  induction nodes generalizing index with
  | nil => simpa [not_nil] using word
  | cons node rest ih =>
    have apart : (∀ fault, ¬FirstFault index (node :: rest) fault) ↔
        (∀ fault, ¬node.Faulty index fault) ∧
          ∀ fault, ¬FirstFault (index + if node.isBound then 1 else 0) rest fault := by
      simp only [cons_iff]
      grind
    rw [apart, Predicate.blameless_iff, List.countP_cons, List.forall_mem_cons]
    by_cases bound : node.isBound = true
    · simp only [bound, if_true, true_implies]
      constructor
      · rintro ⟨⟨sound, next⟩, others⟩
        obtain ⟨sounds, fits⟩ := (ih next).mp others
        exact ⟨⟨sound, sounds⟩, by omega⟩
      · rintro ⟨⟨sound, sounds⟩, fits⟩
        have next : index + 1 < Text.wordSize := by omega
        exact ⟨⟨sound, next⟩, (ih next).mpr ⟨sounds, by omega⟩⟩
    · simp only [bound, Bool.false_eq_true, if_false, Nat.add_zero, false_implies, and_true,
        ih word, and_assoc]

mutual
theorem Predicate.countP_nodes : ∀ node : Predicate,
    node.nodes.countP Predicate.isBound = node.boundLeaves.length
  | .leaf condition => by
    rw [Predicate.nodes, List.countP_singleton, Predicate.boundLeaves_leaf]
    split <;> simp_all [Predicate.isBound]
  | .raw _ _ => rfl
  | .group _ children => by
    rw [Predicate.nodes, List.countP_cons, PredicateTree.countP_nodes children]
    rfl

/-- The predicates that take an index are the tests that bind a value. -/
theorem PredicateTree.countP_nodes : ∀ nodes : List Predicate,
    (PredicateTree.nodes nodes).countP Predicate.isBound =
      (PredicateTree.boundLeaves nodes).length
  | [] => rfl
  | node :: rest => by
    rw [PredicateTree.nodes, List.countP_append, node.countP_nodes,
      PredicateTree.countP_nodes rest, PredicateTree.boundLeaves_cons, List.length_append]
end

namespace Where

variable {condition : Condition} {clause : Clause}

theorem nonBlank_eq_error_iff {part : EmptyPart} {text : String} :
    nonBlank part text = .error fault ↔ Text.trim text = "" ∧ fault = .emptyClause part := by
  unfold nonBlank
  by_cases blank : Text.trim text = ""
  · simpa [blank] using eq_comm
  · simp [blank]

theorem bindValue_eq_error_iff {field comparator : String} {value : Json} {hint : TypeHint} :
    bindValue index field comparator value hint = .error fault ↔
      Text.wordSize ≤ index + 1 ∧ fault = .configuration (.numberingOverflow index) := by
  unfold bindValue
  by_cases fits : index + 1 < Text.wordSize
  · simp [fits, Nat.not_le_of_lt fits]
  · simpa [fits, Nat.le_of_not_lt fits] using eq_comm

theorem standAlone_eq_error_iff {field comparator : String} :
    standAlone index field comparator = .error fault ↔
      comparator = "" ∧ fault = .malformedPredicate (.nothingToCompare field) := by
  unfold standAlone
  by_cases blank : comparator = ""
  · simpa [blank] using eq_comm
  · simp [blank]

/-- A test has no text exactly if it is at fault by itself. -/
theorem compileCondition_eq_error_iff :
    compileCondition index condition = .error fault ↔
      (Predicate.leaf condition).Faulty index fault := by
  unfold compileCondition
  simp only [bind_eq_error_iff, nonBlank_eq_error_iff, nonBlank_eq_ok_iff, and_assoc,
    exists_and_left, exists_eq_left]
  constructor
  · rintro (⟨blank, rfl⟩ | ⟨named, failed⟩)
    · exact .blankField blank
    · split at failed
      · rename_i given
        obtain ⟨blank, rfl⟩ := standAlone_eq_error_iff.mp failed
        exact .nothingToCompare named (.inl given) blank
      · rename_i given
        obtain ⟨blank, rfl⟩ := standAlone_eq_error_iff.mp failed
        exact .nothingToCompare named (.inr given) blank
      · rename_i value notNull given
        split at failed
        · rename_i structured
          rw [← Except.error.inj failed]
          exact .structuredValue named given structured
        · rename_i plain
          obtain ⟨last, rfl⟩ := bindValue_eq_error_iff.mp failed
          have bindable : value.isBindable = true := by
            rcases value.null_or_bindable_or_structured with rfl | bindable | structured
            · exact absurd rfl notNull
            · exact bindable
            · exact absurd structured plain
          exact .numberingOverflow named (by simp [Condition.isBound, given, bindable]) last
  · intro faulty
    cases faulty with
    | blankField blank => exact .inl ⟨blank, rfl⟩
    | @structuredValue _ value named given structured =>
      refine .inr ⟨named, ?_⟩
      cases value <;> simp_all [Json.isStructured]
    | numberingOverflow named bound last =>
      refine .inr ⟨named, ?_⟩
      obtain ⟨value, given, bindable⟩ := (Option.any_eq_true _ _).mp bound
      cases value <;> simp_all [Json.isBindable, Json.isStructured, bindValue_eq_error_iff]
    | nothingToCompare named missing blank =>
      refine .inr ⟨named, ?_⟩
      rcases missing with given | given <;> simp [given, standAlone_eq_error_iff, blank]

theorem compileNode_raw_eq_error_iff {sql : String} {connective : Connective} :
    compileNode index (.raw sql connective) = .error fault ↔
      (Predicate.raw sql connective).Faulty index fault := by
  simp only [compileNode, bind_eq_error_iff, nonBlank_eq_error_iff, pure_ne_error, and_false,
    exists_false, or_false]
  constructor
  · rintro ⟨blank, rfl⟩
    exact .blankRaw blank
  · intro faulty
    cases faulty with
    | blankRaw blank => exact ⟨blank, rfl⟩

/-- A group with something in it fails as what is in it fails, for that never comes out blank. -/
theorem compileNode_group_eq_error_iff {connective : Connective} {children : List Predicate} :
    compileNode index (.group connective children) = .error fault ↔
      (Predicate.group connective children).Faulty index fault ∨
        (children ≠ [] ∧ compileSiblings index children = .error fault) := by
  cases children with
  | nil =>
    have empty : compileNode index (.group connective []) = .error (.emptyClause .groupChildren) :=
      rfl
    rw [empty]
    constructor
    · intro same
      rw [← Except.error.inj same]
      exact .inl .emptyGroup
    · rintro (faulty | ⟨filled, _⟩)
      · cases faulty
        rfl
      · exact absurd rfl filled
  | cons node rest =>
    have sound : ¬(Predicate.group connective (node :: rest)).Faulty index fault := nofun
    have visible {inner : Clause} (compiled : compileSiblings index (node :: rest) = .ok inner) :
        Text.trim inner.sql ≠ "" := compileSiblings_visible (List.cons_ne_nil _ _) compiled
    simp only [compileNode, List.isEmpty_cons, Bool.false_eq_true, ↓reduceIte, bind_eq_error_iff,
      nonBlank_eq_error_iff, pure_ne_error, and_false, exists_false, or_false, sound, false_or,
      ne_eq, reduceCtorEq, not_false_eq_true, true_and]
    grind

/-- A sequence fails as its first predicate does, or else as what follows does. -/
theorem firstFault_sequence {rest : List Predicate}
    (head : ∀ fault, compileNode index node = .error fault ↔ FirstFault index node.nodes fault)
    (tail : ∀ index, compileFollowing index rest = .error fault ↔
      FirstFault index (PredicateTree.nodes rest) fault) :
    (compileNode index node = .error fault ∨
        ∃ first, compileNode index node = .ok first ∧
          compileFollowing first.next rest = .error fault) ↔
      FirstFault index (PredicateTree.nodes (node :: rest)) fault := by
  rw [PredicateTree.nodes, FirstFault.append_iff, head]
  refine or_congr_right ?_
  simp only [← head, ← exists_ok_iff, tail]
  constructor
  · rintro ⟨first, compiled, found⟩
    refine ⟨⟨first, compiled⟩, ?_⟩
    rwa [(compileNode_numbered node compiled).next, ← node.countP_nodes] at found
  · rintro ⟨⟨first, compiled⟩, found⟩
    refine ⟨first, compiled, ?_⟩
    rwa [(compileNode_numbered node compiled).next, ← node.countP_nodes]

mutual
/-- A predicate fails with the first fault in it. -/
theorem compileNode_eq_error_iff {index : Nat} {fault : Error} : ∀ node : Predicate,
    compileNode index node = .error fault ↔ FirstFault index node.nodes fault
  | .leaf condition => by
    rw [compileNode, compileCondition_eq_error_iff, Predicate.nodes, FirstFault.singleton_iff]
  | .raw sql connective => by
    rw [compileNode_raw_eq_error_iff, Predicate.nodes, FirstFault.singleton_iff]
  | .group connective children => by
    have unbound : (Predicate.group connective children).isBound = false := rfl
    rw [compileNode_group_eq_error_iff, Predicate.nodes, FirstFault.cons_iff,
      compileSiblings_eq_error_iff children, Predicate.blameless_iff, unbound]
    simp [Predicate.Sound]

theorem compileSiblings_eq_error_iff {index : Nat} {fault : Error} : ∀ nodes : List Predicate,
    compileSiblings index nodes = .error fault ↔ FirstFault index (PredicateTree.nodes nodes) fault
  | [] => by simp [compileSiblings, PredicateTree.nodes, FirstFault.not_nil]
  | node :: rest => by
    rw [← firstFault_sequence (fun _ => compileNode_eq_error_iff node)
      fun _ => compileFollowing_eq_error_iff rest]
    simp only [compileSiblings, bind_eq_error_iff, pure_ne_error, and_false, exists_false, or_false]

theorem compileFollowing_eq_error_iff {index : Nat} {fault : Error} : ∀ nodes : List Predicate,
    compileFollowing index nodes = .error fault ↔
      FirstFault index (PredicateTree.nodes nodes) fault
  | [] => by simp [compileFollowing, PredicateTree.nodes, FirstFault.not_nil]
  | node :: rest => by
    rw [← firstFault_sequence (fun _ => compileNode_eq_error_iff node)
      fun _ => compileFollowing_eq_error_iff rest]
    simp only [compileFollowing, bind_eq_error_iff, pure_ne_error, and_false, exists_false,
      or_false]
end

theorem compile_eq_error_iff {tree : PredicateTree} (filled : tree ≠ []) :
    compile tree index = .error fault ↔ compileSiblings index tree = .error fault := by
  obtain ⟨node, rest, rfl⟩ := List.exists_cons_of_ne_nil filled
  cases compiled : compileSiblings index (node :: rest) <;>
    simp [compile, compiled, Functor.map, Except.map]

/-- A filter with something in it has a text exactly if all its predicates at every depth are sound
and an index is left for each bound value. If not, it fails with the fault of the first predicate
that has one, which is never that a group came out blank. What it has is a text without blanks
around it. -/
theorem compile_decides {tree : PredicateTree} {offset : Nat} (filled : tree ≠ [])
    (word : offset < Text.wordSize) :
    ((∃ clause, compile tree offset = .ok (some clause)) ↔
      (∀ node ∈ PredicateTree.nodes tree, node.Sound) ∧
        offset + tree.boundLeaves.length < Text.wordSize) ∧
    (∀ fault, compile tree offset = .error fault ↔
      FirstFault offset (PredicateTree.nodes tree) fault) ∧
    compile tree offset ≠ .error (.emptyClause .groupText) ∧
    ∀ clause, compile tree offset = .ok (some clause) →
      clause.sql ≠ "" ∧ Text.trim clause.sql = clause.sql := by
  have fails (fault : Error) : compile tree offset = .error fault ↔
      FirstFault offset (PredicateTree.nodes tree) fault :=
    (compile_eq_error_iff filled).trans (compileSiblings_eq_error_iff tree)
  refine ⟨?_, fails, ?_, ?_⟩
  · have succeeds : (∃ clause, compile tree offset = .ok (some clause)) ↔
        ∀ fault, ¬compileSiblings offset tree = .error fault := by
      rw [← exists_ok_iff]
      exact exists_congr fun clause =>
        compile_eq_some_iff.trans (and_iff_right filled)
    simp only [succeeds, compileSiblings_eq_error_iff, FirstFault.none_iff word,
      PredicateTree.countP_nodes]
  · intro blank
    obtain ⟨node, _, _, faulty⟩ := ((fails _).mp blank).exists_faulty
    cases faulty
  · intro clause compiled
    obtain ⟨_, siblings⟩ := compile_eq_some_iff.mp compiled
    have trimmed := compileSiblings_trimmed siblings
    have visible := compileSiblings_visible filled siblings
    rw [trimmed] at visible
    exact ⟨visible, trimmed⟩

/-- The last test has no field, a value that cannot be bound, and no comparator. -/
def edgeFilter : PredicateTree :=
  [.leaf ⟨"a.x", " ", some (.bool true), .boolean, .and⟩,
    .group .or [.raw " b IS NULL " .and, .leaf ⟨"c", ">", some (.string "x"), .string, .or⟩,
      .leaf ⟨" ", "", some (.array []), .string, .and⟩]]

theorem compile_decides_edgeFilter :
    edgeFilter ≠ [] ∧ Text.wordSize - 2 < Text.wordSize ∧
      compile edgeFilter 0 = .error (.emptyClause .conditionField) ∧
      FirstFault 0 (PredicateTree.nodes edgeFilter) (.emptyClause .conditionField) ∧
      compile edgeFilter (Text.wordSize - 2) =
        .error (.configuration (.numberingOverflow (Text.wordSize - 1))) ∧
      FirstFault (Text.wordSize - 2) (PredicateTree.nodes edgeFilter)
        (.configuration (.numberingOverflow (Text.wordSize - 1))) ∧
      ∃ clause, compile (edgeFilter.take 1) (Text.wordSize - 2) = .ok (some clause) ∧
        Text.trim clause.sql = clause.sql := by
  have filled : edgeFilter ≠ [] := List.cons_ne_nil _ _
  have word : 0 < Text.wordSize := by decide
  have edge : Text.wordSize - 2 < Text.wordSize := by decide
  have blank : compile edgeFilter 0 = .error (.emptyClause .conditionField) := by decide +kernel
  have overflow : compile edgeFilter (Text.wordSize - 2) =
      .error (.configuration (.numberingOverflow (Text.wordSize - 1))) := by decide +kernel
  have single : edgeFilter.take 1 ≠ [] := List.cons_ne_nil _ _
  have sound : ∀ node ∈ PredicateTree.nodes (edgeFilter.take 1), node.Sound := by
    refine List.forall_mem_singleton.mpr ⟨by decide +kernel, ?_, by simp⟩
    rintro value ⟨⟩
    rfl
  obtain ⟨succeeds, _, _, trimmed⟩ := compile_decides single edge
  obtain ⟨clause, compiled⟩ := succeeds.mpr ⟨sound, by decide +kernel⟩
  exact ⟨filled, edge, blank, ((compile_decides filled word).2.1 _).mp blank, overflow,
    ((compile_decides filled edge).2.1 _).mp overflow, clause, compiled,
    (trimmed clause compiled).2⟩

end Where

end SelectCompiler
