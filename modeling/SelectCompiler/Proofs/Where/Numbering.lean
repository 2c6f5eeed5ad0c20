import Mathlib.Data.List.Infix
import SelectCompiler.Proofs.Where.Scan
import SelectCompiler.Proofs.Where.Success

/-!
Placeholder numbering. The parameters of a clause are the bound values of its filter in the order
in which they are written, their indices run on without a gap, and the scan of the text finds these
indices in their places between whatever marks the caller's own texts hold.
-/

namespace SelectCompiler

open Placeholder (leadingDigits)

mutual
/-- What a scan is to find in the text of a predicate whose first free index is `index`: the marks
in the caller's texts and the indices of the bound values, depth first. -/
def Predicate.placeholders (index : Nat) : Predicate → List Nat
  | .leaf condition =>
    Placeholder.indices (Text.trim condition.field) ++ Placeholder.indices condition.comparator
      ++ if condition.isBound then [index] else []
  | .raw sql _ => Placeholder.indices (Text.trim sql)
  | .group _ children => PredicateTree.placeholders index children

def PredicateTree.placeholders (index : Nat) : List Predicate → List Nat
  | [] => []
  | node :: rest =>
    node.placeholders index
      ++ PredicateTree.placeholders (index + node.boundLeaves.length) rest
end

namespace Where

/-- The clause binds exactly these tests, numbered from `index` on, and a scan of its text finds
exactly these placeholders. -/
structure Numbered (index : Nat) (bound : List Condition) (placeholders : List Nat)
    (clause : Clause) : Prop where
  values : clause.parameters.map (fun parameter => (some parameter.value, parameter.hint)) =
    bound.map fun condition => (condition.value, condition.hint)
  indices : clause.parameters.map Parameter.index = List.range' index bound.length
  next : clause.next = index + bound.length
  fits : index < Text.wordSize → clause.next < Text.wordSize
  scanned : Placeholder.indices clause.sql = placeholders

section Pieces

variable {index : Nat} {bound more : List Condition} {placeholders others : List Nat}
  {clause following : Clause}

theorem Numbered.append (first : Numbered index bound placeholders clause)
    (second : Numbered clause.next more others following)
    (apart : leadingDigits following.sql.toList = []) :
    Numbered index (bound ++ more) (placeholders ++ others) (clause.append following) where
  values := by simp only [Clause.append, List.map_append, first.values, second.values]
  indices := by
    simp only [Clause.append, List.map_append, first.indices, second.indices, first.next,
      List.length_append]
    rw [List.range'_append_1]
  next := by
    simp only [Clause.append, second.next, first.next, List.length_append]
    omega
  fits word := second.fits (first.fits word)
  scanned := by
    rw [Clause.append, Placeholder.indices_append _ apart, first.scanned, second.scanned]

theorem Numbered.behind (numbered : Numbered index bound placeholders clause) {lead : String}
    (plain : '%' ∉ lead.toList) : Numbered index bound placeholders (clause.behind lead) where
  values := numbered.values
  indices := numbered.indices
  next := numbered.next
  fits := numbered.fits
  scanned := by rw [Clause.behind, Placeholder.indices_append_of_plain plain, numbered.scanned]

theorem Numbered.parenthesized (numbered : Numbered index bound placeholders clause) :
    Numbered index bound placeholders clause.parenthesized where
  values := numbered.values
  indices := numbered.indices
  next := numbered.next
  fits := numbered.fits
  scanned := by
    have closing : Placeholder.indices ")" = [] := Placeholder.indices_eq_nil_of_plain (by decide)
    have apart : leadingDigits ")".toList = [] := by decide
    rw [Clause.parenthesized, String.append_assoc,
      Placeholder.indices_append_of_plain (by decide), Placeholder.indices_append _ apart, closing,
      List.append_nil, numbered.scanned]

theorem Numbered.text {sql : String} (found : Placeholder.indices sql = placeholders) :
    Numbered index [] placeholders (.text sql index) where
  values := rfl
  indices := rfl
  next := rfl
  fits := id
  scanned := found

end Pieces

theorem indices_comparison (comparator : String) :
    Placeholder.indices (comparison comparator) = Placeholder.indices comparator := by
  unfold comparison
  split
  · rename_i blank
    have none := Placeholder.indices_trim comparator
    rw [String.isEmpty_iff.mp blank] at none
    exact none
  · exact Placeholder.indices_trim comparator

theorem compileCondition_numbered {index : Nat} {condition : Condition} {clause : Clause}
    (compiled : compileCondition index condition = .ok clause) :
    Numbered index (Predicate.leaf condition).boundLeaves
      ((Predicate.leaf condition).placeholders index) clause := by
  rw [Predicate.boundLeaves_leaf, Predicate.placeholders]
  obtain ⟨_, ⟨value, given, bindable, left, rfl⟩ | ⟨missing, _, rfl⟩⟩ :=
    compileCondition_eq_ok_iff.mp compiled
  · have isBound : condition.isBound = true := by simp [Condition.isBound, given, bindable]
    have word : index < Text.wordSize := Nat.lt_of_succ_lt left
    rw [if_pos isBound, if_pos isBound]
    exact {
      values := by simp [boundClause, given]
      indices := rfl
      next := rfl
      fits := fun _ => left
      scanned := by
        rw [boundClause, Placeholder.indices_glue (by decide), Placeholder.indices_glue (by decide),
          indices_comparison, Placeholder.indices_write word] }
  · have unbound : ¬condition.isBound = true := by
      rcases missing with given | given <;> simp [Condition.isBound, given, Json.isBindable]
    rw [if_neg unbound, if_neg unbound, List.append_nil]
    refine .text ?_
    rw [Placeholder.indices_glue (by decide), Placeholder.indices_trim condition.comparator]

/-- What follows a sibling starts with a blank, if there is anything. -/
theorem leadingDigits_compileFollowing {index : Nat} {nodes : List Predicate} {clause : Clause}
    (compiled : compileFollowing index nodes = .ok clause) :
    leadingDigits clause.sql.toList = [] := by
  cases nodes with
  | nil =>
    rw [compileFollowing_nil_eq_ok_iff.mp compiled]
    rfl
  | cons node rest =>
    obtain ⟨first, following, _, _, rfl⟩ := compileFollowing_cons_eq_ok_iff.mp compiled
    simp only [Clause.append, Clause.behind, String.toList_append]
    exact Placeholder.leadingDigits_cons (by decide) _

theorem percent_not_mem_lead (connective : Connective) :
    '%' ∉ (" " ++ connective.sql ++ " ").toList := by
  cases connective <;> decide

mutual
theorem compileNode_numbered {index : Nat} {clause : Clause} :
    ∀ node : Predicate, compileNode index node = .ok clause →
      Numbered index node.boundLeaves (node.placeholders index) clause
  | .leaf _, compiled => compileCondition_numbered compiled
  | .raw _ _, compiled => by
    obtain ⟨_, rfl⟩ := compileNode_raw_eq_ok_iff.mp compiled
    exact .text rfl
  | .group _ children, compiled => by
    obtain ⟨_, inner, siblings, _, rfl⟩ := compileNode_group_eq_ok_iff.mp compiled
    exact (compileSiblings_numbered children siblings).parenthesized

theorem compileSiblings_numbered {index : Nat} {clause : Clause} :
    ∀ nodes : List Predicate, compileSiblings index nodes = .ok clause →
      Numbered index (PredicateTree.boundLeaves nodes) (PredicateTree.placeholders index nodes)
        clause
  | [], compiled => by
    rw [compileSiblings_nil_eq_ok_iff.mp compiled]
    exact .text rfl
  | node :: rest, compiled => by
    obtain ⟨first, following, head, tail, rfl⟩ := compileSiblings_cons_eq_ok_iff.mp compiled
    have numbered := compileNode_numbered node head
    have others := compileFollowing_numbered rest tail
    rw [PredicateTree.boundLeaves_cons, PredicateTree.placeholders, ← numbered.next]
    exact numbered.append others (leadingDigits_compileFollowing tail)

theorem compileFollowing_numbered {index : Nat} {clause : Clause} :
    ∀ nodes : List Predicate, compileFollowing index nodes = .ok clause →
      Numbered index (PredicateTree.boundLeaves nodes) (PredicateTree.placeholders index nodes)
        clause
  | [], compiled => by
    rw [compileFollowing_nil_eq_ok_iff.mp compiled]
    exact .text rfl
  | node :: rest, compiled => by
    obtain ⟨first, following, head, tail, rfl⟩ := compileFollowing_cons_eq_ok_iff.mp compiled
    have numbered := compileNode_numbered node head
    have others := compileFollowing_numbered rest tail
    rw [PredicateTree.boundLeaves_cons, PredicateTree.placeholders, ← numbered.next]
    exact (numbered.behind (percent_not_mem_lead _)).append others
      (leadingDigits_compileFollowing tail)
end

end Where

/-- The text holds a percent sign with a digit behind it. -/
def Placeholder.Marked (text : String) : Prop :=
  ∃ before digit after, text.toList = before ++ '%' :: digit :: after ∧ digit.isDigit = true

theorem Placeholder.marked_iff {text : String} :
    Marked text ↔ text.toList.tails.any (fun tail =>
      tail.head? == some '%' && tail.tail.head?.any Char.isDigit) = true := by
  rw [List.any_eq_true]
  constructor
  · rintro ⟨before, digit, after, split, isDigit⟩
    refine ⟨'%' :: digit :: after, (List.mem_tails _ _).mpr ⟨before, split.symm⟩, ?_⟩
    simpa using isDigit
  · rintro ⟨tail, member, starts⟩
    obtain ⟨before, split⟩ := (List.mem_tails _ _).mp member
    match tail with
    | [] => contradiction
    | [_] => simp at starts
    | percent :: digit :: after =>
      rw [Bool.and_eq_true, beq_iff_eq, List.head?_cons, Option.some.injEq] at starts
      obtain ⟨rfl, isDigit⟩ := starts
      exact ⟨before, digit, after, split.symm, isDigit⟩

instance (text : String) : Decidable (Placeholder.Marked text) :=
  decidable_of_iff _ Placeholder.marked_iff.symm

private theorem Placeholder.scan_of_unmarked {chars : List Char}
    (plain : ∀ before digit after, chars = before ++ '%' :: digit :: after →
      digit.isDigit = false) : scan chars = [] := by
  induction chars with
  | nil => rfl
  | cons c rest ih =>
    have later := ih fun before digit after split =>
      plain (c :: before) digit after (by rw [split, List.cons_append])
    by_cases percent : c = '%'
    · have none : leadingDigits rest = [] := by
        cases rest with
        | nil => rfl
        | cons digit after =>
          exact leadingDigits_cons (plain [] digit after (by rw [percent, List.nil_append])) after
      rw [scan, if_pos percent, none, later]
      rfl
    · rw [scan, if_neg percent, later]

theorem Placeholder.indices_of_unmarked {text : String} (unmarked : ¬Marked text) :
    indices text = [] := by
  apply scan_of_unmarked
  intro before digit after split
  rw [Bool.eq_false_iff]
  exact fun isDigit => unmarked ⟨before, digit, after, split, isDigit⟩

mutual
theorem Predicate.placeholders_of_indices {index : Nat} : ∀ node : Predicate,
    (∀ text ∈ node.texts, Placeholder.indices text = []) →
      node.placeholders index = List.range' index node.boundLeaves.length
  | .leaf condition, silent => by
    have field : Placeholder.indices condition.field = [] :=
      silent condition.field (by simp [Predicate.texts])
    have comparator : Placeholder.indices condition.comparator = [] :=
      silent condition.comparator (by simp [Predicate.texts])
    rw [Predicate.placeholders, Placeholder.indices_trim, field, comparator,
      Predicate.boundLeaves_leaf]
    split <;> rfl
  | .raw sql _, silent => by
    rw [Predicate.placeholders, Placeholder.indices_trim]
    exact silent sql (by simp [Predicate.texts])
  | .group _ children, silent => by
    rw [Predicate.placeholders, Predicate.boundLeaves_group]
    rw [Predicate.texts] at silent
    exact PredicateTree.placeholders_of_indices children silent

/-- Between texts without indices the scan is to find the allocated ones alone. -/
theorem PredicateTree.placeholders_of_indices {index : Nat} : ∀ nodes : List Predicate,
    (∀ text ∈ PredicateTree.texts nodes, Placeholder.indices text = []) →
      PredicateTree.placeholders index nodes =
        List.range' index (PredicateTree.boundLeaves nodes).length
  | [], _ => rfl
  | node :: rest, silent => by
    rw [PredicateTree.texts, List.forall_mem_append] at silent
    rw [PredicateTree.placeholders, node.placeholders_of_indices silent.1,
      PredicateTree.placeholders_of_indices rest silent.2, List.range'_append_1,
      PredicateTree.boundLeaves_cons, List.length_append]
end

theorem PredicateTree.placeholders_of_unmarked {index : Nat} (nodes : List Predicate)
    (unmarked : ∀ text ∈ PredicateTree.texts nodes, ¬Placeholder.Marked text) :
    PredicateTree.placeholders index nodes =
      List.range' index (PredicateTree.boundLeaves nodes).length :=
  PredicateTree.placeholders_of_indices nodes fun text member =>
    Placeholder.indices_of_unmarked (unmarked text member)

namespace Where

/-- The parameters of a clause are the bound values of its filter in order, numbered from `offset`
without a gap, and a scan of its text finds their indices between the marks of the caller's own
texts. Where these texts have no marks, the scan finds the allocated indices and nothing else. -/
theorem compile_numbering {tree : PredicateTree} {offset : Nat} {clause : Clause}
    (word : offset < Text.wordSize) (compiled : compile tree offset = .ok (some clause)) :
    clause.parameters.map (fun parameter => (some parameter.value, parameter.hint)) =
        tree.boundLeaves.map (fun condition => (condition.value, condition.hint)) ∧
      clause.parameters.map Parameter.index = List.range' offset tree.boundLeaves.length ∧
      clause.next = offset + tree.boundLeaves.length ∧
      clause.next < Text.wordSize ∧
      Placeholder.indices clause.sql = PredicateTree.placeholders offset tree ∧
      ((∀ text ∈ PredicateTree.texts tree, ¬Placeholder.Marked text) →
        Placeholder.indices clause.sql = List.range' offset (clause.next - offset)) := by
  obtain ⟨_, siblings⟩ := compile_eq_some_iff.mp compiled
  have numbered := compileSiblings_numbered tree siblings
  refine ⟨numbered.values, numbered.indices, numbered.next, numbered.fits word,
    numbered.scanned, ?_⟩
  intro unmarked
  rw [numbered.scanned, PredicateTree.placeholders_of_unmarked tree unmarked, numbered.next,
    Nat.add_sub_cancel_left]

/-- Two bound values, one of them in a group, between texts that hold marks of their own. -/
def markedFilter : PredicateTree :=
  [.leaf ⟨" a.n ", "LIKE '%7' OR a.n =", some (.string "x"), .string, .and⟩,
    .group .or [.raw "b LIKE '%1%' " .and, .leaf ⟨"c", "IS NULL", some .null, .string, .or⟩,
      .leaf ⟨"d", " ", some (.bool true), .boolean, .and⟩]]

theorem compile_numbering_markedFilter :
    ∃ clause, compile markedFilter 9 = .ok (some clause) ∧
      clause.sql = "a.n LIKE '%7' OR a.n = %9 OR (b LIKE '%1%' OR c IS NULL AND d = %10)" ∧
      clause.parameters.map Parameter.index = [9, 10] ∧
      Placeholder.indices clause.sql = [7, 9, 1, 10] := by
  have compiled : compile markedFilter 9 = .ok (some
      ⟨"a.n LIKE '%7' OR a.n = %9 OR (b LIKE '%1%' OR c IS NULL AND d = %10)",
        [⟨9, .string "x", .string⟩, ⟨10, .bool true, .boolean⟩], 11⟩) := rfl
  have word : 9 < Text.wordSize := by decide
  obtain ⟨_, indices, _, _, scanned, _⟩ := compile_numbering word compiled
  have allocated : List.range' 9 (PredicateTree.boundLeaves markedFilter).length = [9, 10] := rfl
  have found : PredicateTree.placeholders 9 markedFilter = [7, 9, 1, 10] := rfl
  rw [allocated] at indices
  rw [found] at scanned
  exact ⟨_, compiled, rfl, indices, scanned⟩

end Where

end SelectCompiler
