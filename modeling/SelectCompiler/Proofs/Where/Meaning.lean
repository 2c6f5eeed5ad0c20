import SelectCompiler.Proofs.Boolean.Atomic
import SelectCompiler.Proofs.Where.Balance
import SelectCompiler.Proofs.Where.Rendering
import SelectCompiler.Proofs.Where.Trimmed

/-!
What the text of a filter says. A filter has a value of its own: a sequence is the OR of its runs
of predicates joined by AND, and a group is one predicate. If no text of the caller has a connective
of its own, the text of the filter can be read, and it says what the filter does.
-/

namespace SelectCompiler

open Boolean (Balanced Lawful Matched Piece Reads ReadsBy Unconnected Unopened alternatives
  anyRun expression pieces? plainPieces? runs saysBy)

mutual
/-- The value of a predicate whose placeholders are counted from `index`, if each of its tests has
the value of its text. -/
def Predicate.eval (value : String → Bool) (index : Nat) : Predicate → Bool
  | .leaf condition => value (condition.rendered (Placeholder.write index))
  | .raw sql _ => value (Text.trim sql)
  | .group _ children => anyRun (PredicateTree.operands value index children)

/-- The values of siblings, each with the connective that joins it to the one before it. -/
def PredicateTree.operands (value : String → Bool) (index : Nat) :
    List Predicate → List (Connective × Bool)
  | [] => []
  | node :: rest =>
    (node.connective, node.eval value index)
      :: PredicateTree.operands value (index + node.boundLeaves.length) rest
end

/-- The value of a filter. -/
def PredicateTree.eval (value : String → Bool) (index : Nat) (tree : PredicateTree) : Bool :=
  anyRun (PredicateTree.operands value index tree)

namespace Where

variable {read? : List Char → Option (List Piece)} {fine : String → Prop}
  {truth value : String → Bool} {index : Nat} {clause : Clause}

/-- Fine texts have no connective of their own, and a test made of such texts is read as the value
that it has. -/
structure Decides (read? : List Char → Option (List Piece)) (truth value : String → Bool)
    (fine : String → Prop) : Prop where
  reads : ∀ text, fine text → ReadsBy read? Piece.Unjoined text
  leaf : ∀ (index : Nat) (condition : Condition) (clause : Clause), fine condition.field →
    fine condition.comparator → compileCondition index condition = .ok clause →
      saysBy read? truth clause.sql = value clause.sql
  raw : ∀ sql, fine sql → saysBy read? truth (Text.trim sql) = value (Text.trim sql)

section Sequences

mutual
/-- A predicate is one operand and says what it is. -/
theorem compileNode_agrees (laws : Lawful read?) (decides : Decides read? truth value fine)
    {index : Nat} {clause : Clause} : ∀ node : Predicate, (∀ text ∈ node.texts, fine text) →
      compileNode index node = .ok clause →
        ∃ pieces, read? clause.sql.toList = some pieces ∧
          (∀ piece ∈ pieces, piece.Unjoined) ∧
          expression pieces truth = node.eval value index
  | .leaf condition, each, compiled => by
    have field := each condition.field (by simp [Predicate.texts])
    have comparator := each condition.comparator (by simp [Predicate.texts])
    obtain ⟨pieces, read, single⟩ := compileCondition_reads laws (fun _ => id)
      (decides.reads _ field) (decides.reads _ comparator) compiled
    refine ⟨pieces, read, single, ?_⟩
    rw [← Boolean.saysBy_eq read, decides.leaf index condition clause field comparator compiled,
      compileCondition_rendered compiled, Predicate.eval]
  | .raw sql _, each, compiled => by
    obtain ⟨_, rfl⟩ := compileNode_raw_eq_ok_iff.mp compiled
    have own := each sql (by simp [Predicate.texts])
    obtain ⟨pieces, read, single⟩ := laws.trim (decides.reads _ own)
    refine ⟨pieces, read, single, ?_⟩
    rw [← Boolean.saysBy_eq read, decides.raw sql own, Predicate.eval]
  | .group _ children, each, compiled => by
    obtain ⟨filled, inner, siblings, _, rfl⟩ := compileNode_group_eq_ok_iff.mp compiled
    obtain ⟨pieces, read, agrees⟩ :=
      compileSiblings_agrees laws decides children each filled siblings
    refine ⟨_, laws.read_inParens read, List.forall_mem_singleton.mpr ⟨rfl, rfl⟩, ?_⟩
    rw [Boolean.expression_parens, Boolean.expression_eq_any, agrees, Predicate.eval, anyRun]

/-- What stands between the ORs of a sequence are its runs. -/
theorem compileSiblings_agrees (laws : Lawful read?) (decides : Decides read? truth value fine)
    {index : Nat} {clause : Clause} : ∀ nodes : List Predicate,
      (∀ text ∈ PredicateTree.texts nodes, fine text) → nodes ≠ [] →
      compileSiblings index nodes = .ok clause →
        ∃ pieces, read? clause.sql.toList = some pieces ∧
          alternatives pieces truth = runs (PredicateTree.operands value index nodes)
  | [], _, filled, _ => absurd rfl filled
  | node :: rest, each, _, compiled => by
    rw [PredicateTree.texts, List.forall_mem_append] at each
    obtain ⟨first, following, head, tail, rfl⟩ := compileSiblings_cons_eq_ok_iff.mp compiled
    obtain ⟨pieces, read, single, agrees⟩ := compileNode_agrees laws decides node each.1 head
    rw [(compileNode_numbered node head).next] at tail
    rw [PredicateTree.operands, ← agrees]
    exact compileFollowing_agrees laws decides rest each.2 tail node.connective read single

/-- Behind one operand come the others of its sequence. -/
theorem compileFollowing_agrees (laws : Lawful read?) (decides : Decides read? truth value fine)
    {index : Nat} {clause : Clause} : ∀ nodes : List Predicate,
      (∀ text ∈ PredicateTree.texts nodes, fine text) →
      compileFollowing index nodes = .ok clause →
      ∀ (connective : Connective) {before : String} {operand : List Piece},
        read? before.toList = some operand → (∀ piece ∈ operand, piece.Unjoined) →
          ∃ pieces, read? (before ++ clause.sql).toList = some pieces ∧
            alternatives pieces truth = runs ((connective, expression operand truth)
              :: PredicateTree.operands value index nodes)
  | [], _, compiled => by
    intro connective before operand read single
    refine ⟨operand, ?_, ?_⟩
    · rw [compileFollowing_nil_eq_ok_iff.mp compiled, Clause.text, String.append_empty]
      exact read
    · rw [Boolean.alternatives_of_single fun piece member => (single piece member).2,
        PredicateTree.operands, Boolean.runs_singleton,
        Boolean.expression_eq_conjunction fun piece member => (single piece member).2]
  | node :: rest, each, compiled => by
    intro connective before operand read single
    rw [PredicateTree.texts, List.forall_mem_append] at each
    obtain ⟨first, following, head, tail, rfl⟩ := compileFollowing_cons_eq_ok_iff.mp compiled
    obtain ⟨pieces, own, plain, agrees⟩ := compileNode_agrees laws decides node each.1 head
    rw [(compileNode_numbered node head).next] at tail
    obtain ⟨later, behind, values⟩ :=
      compileFollowing_agrees laws decides rest each.2 tail node.connective own plain
    rw [agrees] at values
    refine ⟨operand ++ (Boolean.seam node.connective ++ later), ?_, ?_⟩
    · have joined := laws.read_joined node.connective read behind
      simpa only [Clause.append, Clause.behind, String.append_assoc] using joined
    · have alone : ∀ piece ∈ operand, piece.joins .or = false :=
        fun piece member => (single piece member).2
      rw [PredicateTree.operands, Boolean.expression_eq_conjunction alone]
      -- The operand ends its run where the next one is joined by OR, and else stays in it.
      exact Boolean.alternatives_seam alone values connective
end

end Sequences

/-- The text of a filter can be read, and it says what the filter does. -/
theorem compile_agrees (laws : Lawful read?) (decides : Decides read? truth value fine)
    {tree : PredicateTree} (each : ∀ text ∈ PredicateTree.texts tree, fine text)
    (compiled : compile tree index = .ok (some clause)) :
    ReadsBy read? (fun _ => True) clause.sql ∧
      saysBy read? truth clause.sql = tree.eval value index := by
  obtain ⟨filled, siblings⟩ := compile_eq_some_iff.mp compiled
  obtain ⟨pieces, read, agrees⟩ := compileSiblings_agrees laws decides tree each filled siblings
  refine ⟨⟨pieces, read, fun _ _ => trivial⟩, ?_⟩
  rw [Boolean.saysBy_eq read, Boolean.expression_eq_any, agrees, PredicateTree.eval, anyRun]

section Tests

/-- Every text without a connective of its own is as true as it comes out when it is read. -/
theorem Decides.of_unjoined (read? : List Char → Option (List Piece)) (truth : String → Bool) :
    Decides read? truth (saysBy read? truth) (ReadsBy read? Piece.Unjoined) where
  reads _ := id
  leaf _ _ _ _ _ _ := rfl
  raw _ _ := rfl

/-- If besides it begins with no parenthesis, it is a test. -/
theorem Decides.of_unopened (laws : Lawful read?) (truth : String → Bool) :
    Decides read? truth truth fun text => ReadsBy read? Piece.Unjoined text ∧ Unopened text where
  reads _ fine := fine.1
  leaf index condition clause field comparator compiled := by
    obtain ⟨trimmed, begins⟩ := compileCondition_trimmed compiled
    have reads := compileCondition_reads laws (fun _ => id) field.1 comparator.1 compiled
    have unopened : Unopened clause.sql := by
      rw [Unopened, trimmed, begins]
      exact field.2
    rw [laws.says_test reads unopened, trimmed]
  raw sql fine := by
    rw [laws.says_trim, laws.says_test fine.1 fine.2]

end Tests

/-- Read in the given way, the text says what the filter does if each of its tests has the value
that its own text has. If no text of the filter begins with a parenthesis, the tests of the filter
are the tests of the text. -/
structure Means (read? : List Char → Option (List Piece)) (tree : PredicateTree) (offset : Nat)
    (sql : String) : Prop where
  agrees : ∀ truth, saysBy read? truth sql = tree.eval (saysBy read? truth) offset
  tests : (∀ text ∈ PredicateTree.texts tree, Unopened text) →
    ∀ truth, saysBy read? truth sql = tree.eval truth offset

theorem compile_means (laws : Lawful read?) {tree : PredicateTree}
    (each : ∀ text ∈ PredicateTree.texts tree, ReadsBy read? Piece.Unjoined text)
    (compiled : compile tree index = .ok (some clause)) :
    ReadsBy read? (fun _ => True) clause.sql ∧ Means read? tree index clause.sql := by
  have own (truth : String → Bool) :=
    compile_agrees laws (Decides.of_unjoined read? truth) each compiled
  refine ⟨(own fun _ => true).1, fun truth => (own truth).2, fun unopened truth => ?_⟩
  exact (compile_agrees laws (Decides.of_unopened laws truth)
    (fun text member => ⟨each text member, unopened text member⟩) compiled).2

/-- If the parentheses of every text match and no word is a connective, the parentheses of the
filter match, and it means its tree. A reader of quotations counts neither parentheses nor
connectives in them, in the texts and in the filter alike. -/
theorem compile_means_tree {tree : PredicateTree} {offset : Nat}
    (compiled : compile tree offset = .ok (some clause)) :
    ((∀ text ∈ PredicateTree.texts tree, Matched text ∧ Unconnected text) →
        Matched clause.sql ∧ Means plainPieces? tree offset clause.sql) ∧
      ((∀ text ∈ PredicateTree.texts tree, Reads Piece.Unjoined text) →
        Balanced clause.sql ∧ Means pieces? tree offset clause.sql) := by
  refine ⟨fun atomic => ?_, fun atomic => compile_means Boolean.lawful_pieces? atomic compiled⟩
  rw [Boolean.matched_iff_reads]
  refine compile_means Boolean.lawful_plainPieces? (fun text member => ?_) compiled
  obtain ⟨matched, unconnected⟩ := atomic text member
  obtain ⟨pieces, read, _⟩ := Boolean.matched_iff_reads.mp matched
  exact ⟨pieces, read, Boolean.lawful_plainPieces?.unjoined unconnected read⟩

namespace NestedGroups

/-- A group comes first, and it ends in a group of one predicate. -/
def filter : PredicateTree :=
  [.group .or [.leaf (.eq "a" (.ofNat 1)), .raw " b IS NULL" .or,
      .group .and [.raw "NOT c" .or]],
    .raw "lower(d) LIKE 'x%'" .and,
    .group .or [.leaf (.compare "e" ">" (.ofNat 2))]]

def written : Clause where
  sql := "(a = %3 OR b IS NULL AND (NOT c)) AND lower(d) LIKE 'x%' OR (e > %4)"
  parameters := [⟨3, .ofNat 1, .string⟩, ⟨4, .ofNat 2, .string⟩]
  next := 5

/-- What the filter does, told by its tests. -/
def told (truth : String → Bool) : Bool :=
  (truth "a = %3" || truth "b IS NULL" && truth "NOT c") && truth "lower(d) LIKE 'x%'" ||
    truth "e > %4"

end NestedGroups

open NestedGroups in
theorem compile_means_tree_nestedGroups :
    compile filter 3 = .ok (some written) ∧
      Matched written.sql ∧ (∀ truth, saysBy plainPieces? truth written.sql = told truth) ∧
      Balanced written.sql ∧ ∀ truth, saysBy pieces? truth written.sql = told truth := by
  have compiled : compile filter 3 = .ok (some written) := by decide +kernel
  have atomic : ∀ text ∈ PredicateTree.texts filter, Matched text ∧ Unconnected text := by
    decide +kernel
  have quoted : ∀ text ∈ PredicateTree.texts filter, Reads Piece.Unjoined text := by
    decide +kernel
  have unopened : ∀ text ∈ PredicateTree.texts filter, Unopened text := by decide +kernel
  have same (truth : String → Bool) : filter.eval truth 3 = told truth := by
    have shape : filter.eval truth 3 =
        anyRun [(.or, anyRun [(.and, truth "a = %3"), (.or, truth "b IS NULL"),
            (.and, anyRun [(.or, truth "NOT c")])]),
          (.and, truth "lower(d) LIKE 'x%'"), (.or, anyRun [(.and, truth "e > %4")])] := rfl
    rw [shape, told]
    simp [anyRun, Boolean.runs_cons_or, Boolean.runs_cons_and, Boolean.runs_singleton]
  obtain ⟨plain, quoting⟩ := compile_means_tree compiled
  obtain ⟨matched, means⟩ := plain atomic
  obtain ⟨balanced, meansToo⟩ := quoting quoted
  refine ⟨compiled, matched, fun truth => ?_, balanced, fun truth => ?_⟩
  · rw [means.tests unopened, same]
  · rw [meansToo.tests unopened, same]

end Where

end SelectCompiler
