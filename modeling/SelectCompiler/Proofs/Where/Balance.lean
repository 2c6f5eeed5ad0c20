import SelectCompiler.Proofs.Boolean.Joined
import SelectCompiler.Proofs.Where.Scan
import SelectCompiler.Proofs.Where.Success

/-!
The text of a filter as boolean SQL. Nothing that the compiler writes breaks a quotation or leaves
parentheses open, and the only OR that it writes stands between two predicates.
-/

namespace SelectCompiler

open Boolean (Balanced Conjunctive Lawful Piece ReadsBy)

/-- The texts of a predicate that have no parentheses around them. -/
def Predicate.bareTexts : Predicate → List String
  | .leaf condition => [condition.field, condition.comparator]
  | .raw sql _ => [sql]
  | .group _ _ => []

namespace Where

variable {index : Nat} {clause : Clause}

theorem isWordChar_of_isDigit {c : Char} (digit : c.isDigit = true) :
    Boolean.isWordChar c = true := by
  simp [Boolean.isWordChar, Char.isAlphanum, digit, Text.isBlank_of_isDigit digit]

theorem joins_eq_false_of_digits {chars : List Char} (connective : Connective)
    (digits : ∀ c ∈ chars, c.isDigit = true) : (Piece.word chars).joins connective = false := by
  rw [Bool.eq_false_iff]
  intro joins
  have same : chars.map Char.toUpper = connective.sql.toList := beq_iff_eq.mp joins
  obtain ⟨letter, member, plain⟩ : ∃ letter ∈ connective.sql.toList, letter.isDigit = false := by
    cases connective
    · exact ⟨'A', by decide, by decide⟩
    · exact ⟨'O', by decide, by decide⟩
  obtain ⟨digit, written, rfl⟩ := List.mem_map.mp (same ▸ member)
  rw [Text.toUpper_of_isDigit (digits digit written), digits digit written] at plain
  contradiction

section Leaves

variable {read? : List Char → Option (List Piece)} {allowed : Piece → Prop}

theorem reads_write (laws : Lawful read?) (index : Nat) :
    ReadsBy read? Piece.Unjoined (Placeholder.write index) := by
  have digits : ∀ c ∈ index.repr.toList, c.isDigit = true := Text.isDigit_of_mem_repr
  have word := laws.word (fun c member => isWordChar_of_isDigit (digits c member))
    Text.toList_repr_ne_nil
  have percent : Boolean.IsSign '%' := ⟨by decide, by decide, by decide, by decide⟩
  have start : (Placeholder.write index).toList = '%' :: index.repr.toList := by
    rw [Placeholder.write, String.toList_append]
    rfl
  refine ⟨[.sign '%', .word index.repr.toList], ?_, ?_⟩
  · rw [start, laws.sign percent, word]
    rfl
  · refine List.forall_mem_cons.mpr ⟨⟨rfl, rfl⟩, List.forall_mem_singleton.mpr ?_⟩
    exact ⟨joins_eq_false_of_digits .and digits, joins_eq_false_of_digits .or digits⟩

/-- A comparator is written as it is; none at all means equality. -/
theorem reads_comparison (laws : Lawful read?)
    (allows : ∀ piece : Piece, piece.Unjoined → allowed piece) {comparator : String}
    (reads : ReadsBy read? allowed comparator) : ReadsBy read? allowed (comparison comparator) := by
  unfold comparison
  split
  · have equals : Boolean.IsSign '=' := ⟨by decide, by decide, by decide, by decide⟩
    have read : read? "=".toList = some [.sign '='] := by
      rw [show "=".toList = ['='] from rfl, laws.sign equals, laws.nil]
      rfl
    exact ⟨_, read, List.forall_mem_singleton.mpr (allows _ ⟨rfl, rfl⟩)⟩
  · exact laws.trim reads

/-- A test has no connective of its own. -/
theorem compileCondition_reads (laws : Lawful read?)
    (allows : ∀ piece : Piece, piece.Unjoined → allowed piece) {condition : Condition}
    (field : ReadsBy read? allowed condition.field)
    (comparator : ReadsBy read? allowed condition.comparator)
    (compiled : compileCondition index condition = .ok clause) :
    ReadsBy read? allowed clause.sql := by
  have blank : allowed (.sign ' ') := allows _ ⟨rfl, rfl⟩
  obtain ⟨_, ⟨value, _, _, _, rfl⟩ | ⟨_, _, rfl⟩⟩ := compileCondition_eq_ok_iff.mp compiled
  · have compared := laws.spaced blank (laws.trim field) (reads_comparison laws allows comparator)
    exact laws.spaced blank compared ((reads_write laws index).mono allows)
  · exact laws.spaced blank (laws.trim field) (laws.trim comparator)

end Leaves

mutual
theorem compileNode_balanced {index : Nat} {clause : Clause} :
    ∀ node : Predicate, (∀ text ∈ node.texts, Balanced text) →
      compileNode index node = .ok clause → Balanced clause.sql
  | .leaf condition, balanced, compiled =>
    compileCondition_reads Boolean.lawful_pieces? (fun _ _ => trivial)
      (balanced _ (by simp [Predicate.texts])) (balanced _ (by simp [Predicate.texts])) compiled
  | .raw sql _, balanced, compiled => by
    obtain ⟨_, rfl⟩ := compileNode_raw_eq_ok_iff.mp compiled
    exact (balanced sql (by simp [Predicate.texts])).trim
  | .group _ children, balanced, compiled => by
    obtain ⟨_, inner, siblings, _, rfl⟩ := compileNode_group_eq_ok_iff.mp compiled
    exact .parens (fun _ _ => trivial) (compileSiblings_balanced children balanced siblings)

theorem compileSiblings_balanced {index : Nat} {clause : Clause} :
    ∀ nodes : List Predicate, (∀ text ∈ PredicateTree.texts nodes, Balanced text) →
      compileSiblings index nodes = .ok clause → Balanced clause.sql
  | [], _, compiled => by
    rw [compileSiblings_nil_eq_ok_iff.mp compiled]
    exact ⟨[], rfl, nofun⟩
  | node :: rest, balanced, compiled => by
    rw [PredicateTree.texts, List.forall_mem_append] at balanced
    obtain ⟨first, following, head, tail, rfl⟩ := compileSiblings_cons_eq_ok_iff.mp compiled
    exact compileFollowing_balanced rest balanced.2 tail
      (compileNode_balanced node balanced.1 head)

/-- Behind any text that can be read. -/
theorem compileFollowing_balanced {index : Nat} {clause : Clause} {before : String} :
    ∀ nodes : List Predicate, (∀ text ∈ PredicateTree.texts nodes, Balanced text) →
      compileFollowing index nodes = .ok clause → Balanced before →
        Balanced (before ++ clause.sql)
  | [], _, compiled, read => by
    rw [compileFollowing_nil_eq_ok_iff.mp compiled, Clause.text, String.append_empty]
    exact read
  | node :: rest, balanced, compiled, read => by
    rw [PredicateTree.texts, List.forall_mem_append] at balanced
    obtain ⟨first, following, head, tail, rfl⟩ := compileFollowing_cons_eq_ok_iff.mp compiled
    have joined : Balanced (before ++ (" " ++ node.connective.sql ++ " ") ++ first.sql) :=
      read.joined (fun _ _ => trivial) (compileNode_balanced node balanced.1 head)
    have all := compileFollowing_balanced rest balanced.2 tail joined
    simpa only [Clause.append, Clause.behind, String.append_assoc] using all
end

/-- A filter of one predicate has no OR outside of parentheses if its bare texts have none. -/
theorem compileSiblings_conjunctive {node : Predicate}
    (balanced : ∀ text ∈ node.texts, Balanced text)
    (bare : ∀ text ∈ node.bareTexts, Conjunctive text)
    (compiled : compileSiblings index [node] = .ok clause) : Conjunctive clause.sql := by
  obtain ⟨first, following, head, tail, rfl⟩ := compileSiblings_cons_eq_ok_iff.mp compiled
  obtain rfl := compileFollowing_nil_eq_ok_iff.mp tail
  have same : (first.append (.text "" first.next)).sql = first.sql := String.append_empty
  rw [same]
  cases node with
  | leaf condition =>
    exact compileCondition_reads Boolean.lawful_pieces? (fun _ unjoined => unjoined.2)
      (bare _ (by simp [Predicate.bareTexts])) (bare _ (by simp [Predicate.bareTexts])) head
  | raw sql connective =>
    obtain ⟨_, rfl⟩ := compileNode_raw_eq_ok_iff.mp head
    exact (bare sql (by simp [Predicate.bareTexts])).trim
  | group connective children =>
    obtain ⟨_, inner, siblings, _, rfl⟩ := compileNode_group_eq_ok_iff.mp head
    exact .parens (fun _ _ => rfl) (compileSiblings_balanced children balanced siblings)

end Where

end SelectCompiler
