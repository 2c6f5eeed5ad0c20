import Mathlib.Data.List.SplitBy
import SelectCompiler.Proofs.Boolean.Reading
import SelectCompiler.Proofs.Text.Trimming

/-!
How the pieces of a boolean text are put together. Blanks at either end do not matter, parentheses
make one operand of what is in them, and a sequence of operands that have no connective of their own
is true if one of its runs is: a run is what stands between two ORs, and it is true if all of it is.
-/

namespace SelectCompiler.Boolean

/-- The piece is no connective. -/
def Piece.Unjoined (piece : Piece) : Prop :=
  piece.joins .and = false ∧ piece.joins .or = false

instance : DecidablePred Piece.Unjoined := fun _ => inferInstanceAs (Decidable (_ ∧ _))

section Splitting

variable {α β : Type} {separates : α → Bool} {value : List α → β} {x : α}

/-- An element that does not count at the front of a part does not count at the front of all. -/
theorem map_splitOnP_cons (plain : separates x = false)
    (ignored : ∀ part, value (x :: part) = value part) (xs : List α) :
    ((x :: xs).splitOnP separates).map value = (xs.splitOnP separates).map value := by
  obtain ⟨part, parts, split⟩ := List.exists_cons_of_ne_nil (List.splitOnP_ne_nil separates xs)
  rw [List.splitOnP_cons_eq_if_modifyHead, plain, split]
  simp [ignored]

theorem splitOnP_concat (plain : separates x = false) (xs : List α) :
    ∃ parts part, xs.splitOnP separates = parts ++ [part] ∧
      (xs ++ [x]).splitOnP separates = parts ++ [part ++ [x]] := by
  induction xs with
  | nil => exact ⟨[], [], rfl, by simp [List.splitOnP_cons_eq_if_modifyHead, plain]⟩
  | cons y ys ih =>
    obtain ⟨parts, part, before, after⟩ := ih
    rw [List.cons_append, List.splitOnP_cons_eq_if_modifyHead, List.splitOnP_cons_eq_if_modifyHead,
      before, after]
    split
    · exact ⟨[] :: parts, part, rfl, rfl⟩
    · cases parts with
      | nil => exact ⟨[], y :: part, rfl, rfl⟩
      | cons first parts => exact ⟨(y :: first) :: parts, part, rfl, rfl⟩

theorem map_splitOnP_concat (plain : separates x = false)
    (ignored : ∀ part, value (part ++ [x]) = value part) (xs : List α) :
    ((xs ++ [x]).splitOnP separates).map value = (xs.splitOnP separates).map value := by
  obtain ⟨parts, part, before, after⟩ := splitOnP_concat plain xs
  rw [before, after]
  simp [ignored]

end Splitting

section Values

variable {c : Char} {pieces first second : List Piece} {lead trail : List Char}
  {truth : String → Bool}

theorem operand_cons_blank (blank : Text.isBlank c = true) (pieces : List Piece) :
    operand (.sign c :: pieces) = operand pieces := by
  have same : enclosed? (.sign c :: pieces) = enclosed? pieces := by
    simp [enclosed?, Piece.isBlank, blank]
  rw [operand, same, operand, List.flatMap_cons, Piece.chars, List.singleton_append,
    Text.trimmed_cons_of_isBlank blank]

theorem operand_concat_blank (blank : Text.isBlank c = true) (pieces : List Piece) :
    operand (pieces ++ [.sign c]) = operand pieces := by
  have same : enclosed? (pieces ++ [.sign c]) = enclosed? pieces := by
    simp [enclosed?, Piece.isBlank, blank]
  rw [operand, same, operand, List.flatMap_append, List.flatMap_singleton, Piece.chars,
    Text.trimmed_concat_of_isBlank blank]

theorem conjunction_cons_blank (blank : Text.isBlank c = true) (pieces : List Piece) :
    conjunction (.sign c :: pieces) = conjunction pieces := by
  funext truth
  rw [conjunction, map_splitOnP_cons rfl (operand_cons_blank blank), conjunction]

theorem conjunction_concat_blank (blank : Text.isBlank c = true) (pieces : List Piece) :
    conjunction (pieces ++ [.sign c]) = conjunction pieces := by
  funext truth
  rw [conjunction, map_splitOnP_concat rfl (operand_concat_blank blank), conjunction]

theorem expression_cons_blank (blank : Text.isBlank c = true) (pieces : List Piece) :
    expression (.sign c :: pieces) = expression pieces := by
  funext truth
  rw [expression, map_splitOnP_cons rfl (conjunction_cons_blank blank), expression]

theorem expression_concat_blank (blank : Text.isBlank c = true) (pieces : List Piece) :
    expression (pieces ++ [.sign c]) = expression pieces := by
  funext truth
  rw [expression, map_splitOnP_concat rfl (conjunction_concat_blank blank), expression]

theorem expression_blanks (leading : ∀ c ∈ lead, Text.isBlank c = true)
    (trailing : ∀ c ∈ trail, Text.isBlank c = true) (pieces : List Piece) :
    expression (lead.map .sign ++ (pieces ++ trail.map .sign)) = expression pieces := by
  induction lead with
  | nil =>
    rw [List.map_nil, List.nil_append]
    induction trail generalizing pieces with
    | nil => simp
    | cons c rest ih =>
      rw [List.map_cons, ← List.singleton_append, ← List.append_assoc,
        ih (fun other member => trailing other (List.mem_cons_of_mem c member)),
        expression_concat_blank (trailing c List.mem_cons_self)]
  | cons c rest ih =>
    rw [List.map_cons, List.cons_append, expression_cons_blank (leading c List.mem_cons_self),
      ih fun other member => leading other (List.mem_cons_of_mem c member)]

theorem expression_parens (chars : List Char) (meaning : Meaning) :
    expression [.parens chars meaning] = meaning := by
  funext truth
  have split (connective : Connective) :
      [Piece.parens chars meaning].splitOnP (·.joins connective) = [[.parens chars meaning]] := rfl
  simp [expression, conjunction, split, operand, enclosed?, Piece.isBlank]

/-- Without an OR there is only one alternative. -/
theorem expression_eq_conjunction (single : ∀ piece ∈ pieces, piece.joins .or = false) :
    expression pieces = conjunction pieces := by
  funext truth
  rw [expression, List.splitOnP_eq_singleton single]
  simp

/-- Without any connective there is only one operand. -/
theorem expression_eq_operand (single : ∀ piece ∈ pieces, piece.Unjoined) :
    expression pieces = operand pieces := by
  rw [expression_eq_conjunction fun piece member => (single piece member).2]
  funext truth
  rw [conjunction, List.splitOnP_eq_singleton fun piece member => (single piece member).1]
  simp

/-- What stands between two texts that are joined. -/
def seam (connective : Connective) : List Piece :=
  [.sign ' ', .word connective.sql.toList, .sign ' ']

theorem conjunction_and :
    conjunction (first ++ (seam .and ++ second)) truth =
      (conjunction first truth && conjunction second truth) := by
  have split : first ++ (seam .and ++ second) =
      (first ++ [.sign ' ']) ++ .word Connective.and.sql.toList :: .sign ' ' :: second := by
    simp [seam]
  have joins : (Piece.word Connective.and.sql.toList).joins .and = true := by decide
  rw [conjunction, split, List.splitOnP_append_cons _ _ joins, List.map_append, List.all_append,
    map_splitOnP_concat rfl (operand_concat_blank (by decide)),
    map_splitOnP_cons rfl (operand_cons_blank (by decide)), conjunction, conjunction]

end Values

section Sequences

variable {first second : List Piece} {truth : String → Bool} {value : Bool}
  {operands : List (Connective × Bool)}

/-- An operand is joined to the one before it by its own connective. -/
def joinedByAnd (_ next : Connective × Bool) : Bool := next.1 == .and

/-- The values of the runs of a sequence. A run goes on as long as its operands are joined by
AND. -/
def runs (operands : List (Connective × Bool)) : List Bool :=
  (operands.splitBy joinedByAnd).map fun run => run.all Prod.snd

/-- A sequence is true if one of its runs is. -/
def anyRun (operands : List (Connective × Bool)) : Bool :=
  (runs operands).any id

theorem runs_singleton (operand : Connective × Bool) : runs [operand] = [operand.2] := by
  simp [runs, List.splitBy, List.splitBy.loop]

/-- An element that is related to the next one comes to the front of the first group. -/
theorem splitBy_cons_of_related {α : Type} {related : α → α → Bool} {x y : α} {rest : List α}
    (joined : related x y = true) :
    (x :: y :: rest).splitBy related =
      ((y :: rest).splitBy related).modifyHead (x :: ·) := by
  obtain ⟨whole, filled, chains, breaks⟩ := List.splitBy_eq_iff.mp (Eq.refl
    ((y :: rest).splitBy related))
  cases groups : (y :: rest).splitBy related with
  | nil => exact absurd groups (List.splitBy_ne_nil.mpr (List.cons_ne_nil y rest))
  | cons group others =>
    rw [groups] at whole filled chains breaks
    rw [List.modifyHead_cons, List.splitBy_eq_iff]
    obtain ⟨head, tail, rfl⟩ : ∃ head tail, group = head :: tail :=
      List.exists_cons_of_ne_nil fun empty => filled (empty ▸ List.mem_cons_self)
    obtain ⟨rfl, _⟩ := List.cons.inj whole
    obtain ⟨inGroup, inOthers⟩ := List.forall_mem_cons.mp chains
    refine ⟨by rw [whole]; rfl, ?_, ?_, ?_⟩
    · rw [List.mem_cons, not_or] at filled ⊢
      exact ⟨(List.cons_ne_nil _ _).symm, filled.2⟩
    · exact List.forall_mem_cons.mpr ⟨.cons_cons joined inGroup, inOthers⟩
    · rw [List.isChain_cons] at breaks ⊢
      refine ⟨fun next member => ?_, breaks.2⟩
      obtain ⟨before, after, apart⟩ := breaks.1 next member
      exact ⟨List.cons_ne_nil _ _, after, by rwa [List.getLast_cons before]⟩

/-- An OR ends the run before it. -/
theorem runs_cons_or (first : Connective × Bool) (value : Bool) :
    runs (first :: (.or, value) :: operands) = first.2 :: runs ((.or, value) :: operands) := by
  have apart : ([first] ++ (.or, value) :: operands).splitBy joinedByAnd =
      [first].splitBy joinedByAnd ++ ((.or, value) :: operands).splitBy joinedByAnd :=
    List.splitBy_append_cons operands fun _ _ => rfl
  rw [List.singleton_append] at apart
  rw [runs, apart, List.map_append]
  exact congrArg (· ++ runs ((.or, value) :: operands)) (runs_singleton first)

/-- An AND brings one more operand into the run behind it. -/
theorem runs_cons_and (first : Connective × Bool) (value : Bool) :
    runs (first :: (.and, value) :: operands) =
      (runs ((.and, value) :: operands)).modifyHead (first.2 && ·) := by
  rw [runs, splitBy_cons_of_related rfl, runs]
  cases ((.and, value) :: operands).splitBy joinedByAnd with
  | nil => rfl
  | cons run others => rfl

/-- The values of what stands between the ORs of a text. -/
def alternatives (pieces : List Piece) (truth : String → Bool) : List Bool :=
  (pieces.splitOnP (·.joins .or)).map (conjunction · truth)

theorem expression_eq_any (pieces : List Piece) (truth : String → Bool) :
    expression pieces truth = (alternatives pieces truth).any id := by
  rw [expression, alternatives, List.any_map, List.any_map]
  rfl

theorem alternatives_of_single (single : ∀ piece ∈ first, piece.joins .or = false)
    (truth : String → Bool) : alternatives first truth = [conjunction first truth] := by
  rw [alternatives, List.splitOnP_eq_singleton single, List.map_singleton]

/-- What has no OR comes to the front of the first part. -/
theorem splitOnP_append_of_single {α : Type} {separates : α → Bool} {xs : List α}
    (single : ∀ x ∈ xs, separates x = false) (ys : List α) :
    (xs ++ ys).splitOnP separates = (ys.splitOnP separates).modifyHead (xs ++ ·) := by
  induction xs with
  | nil =>
    obtain ⟨part, parts, split⟩ := List.exists_cons_of_ne_nil (List.splitOnP_ne_nil separates ys)
    rw [List.nil_append, split]
    rfl
  | cons x xs ih =>
    obtain ⟨plain, others⟩ := List.forall_mem_cons.mp single
    rw [List.cons_append, List.splitOnP_cons_eq_if_modifyHead, plain, ih others]
    cases ys.splitOnP separates <;> rfl

theorem alternatives_or (single : ∀ piece ∈ first, piece.joins .or = false) :
    alternatives (first ++ (seam .or ++ second)) truth =
      conjunction first truth :: alternatives second truth := by
  have split : first ++ (seam .or ++ second) =
      (first ++ [.sign ' ']) ++ .word Connective.or.sql.toList :: .sign ' ' :: second := by
    simp [seam]
  have joins : (Piece.word Connective.or.sql.toList).joins .or = true := by decide
  rw [alternatives, split, List.splitOnP_append_cons _ _ joins, List.map_append,
    map_splitOnP_concat rfl fun part => congrFun (conjunction_concat_blank (by decide) part) truth,
    map_splitOnP_cons rfl fun part => congrFun (conjunction_cons_blank (by decide) part) truth]
  exact congrArg (· ++ alternatives second truth) (alternatives_of_single single truth)

theorem alternatives_and (single : ∀ piece ∈ first, piece.joins .or = false) :
    alternatives (first ++ (seam .and ++ second)) truth =
      (alternatives second truth).modifyHead (conjunction first truth && ·) := by
  have plain : ∀ piece ∈ first ++ seam .and, piece.joins .or = false := by
    refine List.forall_mem_append.mpr ⟨single, ?_⟩
    simp [seam, Piece.joins]
    decide
  rw [alternatives, ← List.append_assoc, splitOnP_append_of_single plain, alternatives]
  cases second.splitOnP (·.joins .or) with
  | nil => rfl
  | cons part parts =>
    rw [List.modifyHead_cons, List.map_cons, List.map_cons, List.modifyHead_cons,
      List.append_assoc, conjunction_and]

/-- An operand without an OR in front of a sequence is one more operand of the sequence. -/
theorem alternatives_seam {connective : Connective}
    (single : ∀ piece ∈ first, piece.joins .or = false)
    (read : alternatives second truth = runs ((connective, value) :: operands))
    (before : Connective) :
    alternatives (first ++ (seam connective ++ second)) truth =
      runs ((before, conjunction first truth) :: (connective, value) :: operands) := by
  cases connective with
  | or => rw [alternatives_or single, read, runs_cons_or]
  | and => rw [alternatives_and single, read, runs_cons_and]

end Sequences

end SelectCompiler.Boolean
