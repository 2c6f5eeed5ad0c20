import Mathlib.Data.List.Infix
import SelectCompiler.Proofs.Boolean.Joined

/-!
What the characters of a boolean text tell of its pieces. Where quotation marks are signs like any
others, a text can be read exactly if its parentheses match. And whatever way a text is read, its
words are the longest runs of characters of words in it, so that a text in which none of these is a
connective has no connective outside of parentheses.
-/

namespace SelectCompiler.Boolean

variable {text : String} {chars word : List Char} {pieces : List Piece}
  {read? : List Char → Option (List Piece)} {truth : String → Bool}

/-- No more parentheses are closed than opened before any place, and as many in all. -/
def Matched (text : String) : Prop :=
  (∀ before, before <+: text.toList → before.count ')' ≤ before.count '(') ∧
    text.toList.count '(' = text.toList.count ')'

instance (text : String) : Decidable (Matched text) :=
  decidable_of_iff ((∀ before ∈ text.toList.inits, before.count ')' ≤ before.count '(') ∧
    text.toList.count '(' = text.toList.count ')') (by simp [Matched, List.mem_inits])

/-- What stands between words. -/
def isGap (c : Char) : Bool := !isWordChar c

/-- No word of the text is AND or OR, in any case. -/
def Unconnected (text : String) : Prop :=
  ∀ word ∈ text.toList.splitOnP isGap, (Piece.word word).Unjoined

instance (text : String) : Decidable (Unconnected text) :=
  inferInstanceAs (Decidable (∀ word ∈ _, _))

/-- The first character that is not blank is no opening parenthesis. -/
def Unopened (text : String) : Prop := (Text.trim text).toList.head? ≠ some '('

instance (text : String) : Decidable (Unopened text) := inferInstanceAs (Decidable (_ ≠ _))

section Matching

variable {now next : Reader} {c : Char} {rest : List Char}

namespace Reader

@[simp] theorem quotation_onLevel (now : Reader) (change : List Piece → List Piece) :
    (now.onLevel change).quotation = now.quotation := by
  unfold onLevel
  split <;> rfl

@[simp] theorem length_inner_onLevel (now : Reader) (change : List Piece → List Piece) :
    (now.onLevel change).inner.length = now.inner.length := by
  obtain ⟨quotation, inner, base⟩ := now
  cases inner <;> rfl

/-- A plain reader never enters a quotation. -/
theorem quotation_takePlain (outside : now.quotation = none)
    (taken : now.takePlain c = some next) : next.quotation = none := by
  unfold Reader.takePlain at taken
  split at taken
  · rw [← Option.some.inj taken, quotation_onLevel, outside]
  · rename_i noMark
    cases takes_of_take taken with
    | quoted quotation inQuotation begins => rw [quotation_onLevel]
    | quoting quotation inQuotation goesOn => exact nomatch outside.symm.trans inQuotation
    | mark _ mark => exact absurd ⟨by rw [outside]; rfl, mark⟩ noMark
    | closing _ _ => exact outside
    | opening _ _ enclosed =>
      obtain ⟨quotation, inner, base⟩ := now
      cases inner with
      | nil => contradiction
      | cons level outer => rw [← Option.some.inj enclosed, quotation_onLevel]; exact outside
    | name _ _ => rw [quotation_onLevel, outside]
    | sign _ _ _ _ => rw [quotation_onLevel, outside]

/-- A plain reader is in no quotation, and the levels still to be opened are as many as the
parentheses closed and not opened. -/
structure Counts (now : Reader) (chars : List Char) : Prop where
  outside : now.quotation = none
  levels : now.inner.length + chars.count '(' = chars.count ')'

theorem Counts.takePlain (counts : now.Counts chars) (taken : now.takePlain c = some next) :
    next.Counts (c :: chars) := by
  have outside := quotation_takePlain counts.outside taken
  refine ⟨outside, ?_⟩
  have levels := counts.levels
  cases sound_takePlain.takes taken with
  | quoted quotation inQuotation begins => exact nomatch counts.outside.symm.trans inQuotation
  | quoting quotation inQuotation goesOn => exact nomatch counts.outside.symm.trans inQuotation
  | mark _ mark => contradiction
  | closing _ closing =>
    rw [closing, List.length_cons, List.count_cons_self, List.count_cons_of_ne (by decide)]
    omega
  | opening _ opening enclosed =>
    obtain ⟨quotation, inner, base⟩ := now
    cases inner with
    | nil => contradiction
    | cons level outer =>
      rw [List.length_cons] at levels
      rw [← Option.some.inj enclosed, length_inner_onLevel, opening, List.count_cons_self,
        List.count_cons_of_ne (by decide), ← levels, Nat.add_right_comm]
      rfl
  | name _ name =>
    have noOpening : c ≠ '(' := by rintro rfl; revert name; decide
    have noClosing : c ≠ ')' := by rintro rfl; revert name; decide
    rw [length_inner_onLevel, List.count_cons_of_ne noOpening, List.count_cons_of_ne noClosing]
    exact levels
  | sign _ noClosing noOpening _ =>
    rw [length_inner_onLevel, List.count_cons_of_ne noOpening, List.count_cons_of_ne noClosing]
    exact levels

theorem counts_of_readBy (done : Reader.start.readBy Reader.takePlain chars = some now) :
    now.Counts chars :=
  readBy_preserves Counts (fun counts taken => counts.takePlain taken) ⟨rfl, rfl⟩ done

/-- Only an opening parenthesis that nothing closes cannot be taken. -/
theorem exists_takePlain (outside : now.quotation = none) (closed : c = '(' → now.inner ≠ []) :
    ∃ next, now.takePlain c = some next := by
  unfold takePlain
  split
  · exact ⟨_, rfl⟩
  · unfold take
    rw [outside]
    simp only
    split
    · exact ⟨_, rfl⟩
    split
    · exact ⟨_, rfl⟩
    split
    · rename_i opening
      obtain ⟨level, outer, inner⟩ := List.exists_cons_of_ne_nil (closed opening)
      rw [enclose?, inner]
      exact ⟨_, rfl⟩
    split
    · exact ⟨_, rfl⟩
    · exact ⟨_, rfl⟩

/-- A plain reader gets through a text if no part at its end opens more than it closes. -/
theorem exists_readBy_iff :
    (∃ now, Reader.start.readBy Reader.takePlain chars = some now) ↔
      ∀ after, after <:+ chars → after.count '(' ≤ after.count ')' := by
  induction chars with
  | nil =>
    refine ⟨fun _ after ending => ?_, fun _ => ⟨_, rfl⟩⟩
    rw [List.suffix_nil.mp ending]
    exact Nat.le_refl _
  | cons c rest ih =>
    constructor
    · rintro ⟨now, done⟩ after ending
      obtain ⟨before, read, _⟩ := Option.bind_eq_some_iff.mp done
      obtain rfl | later := List.suffix_cons_iff.mp ending
      · have levels := (counts_of_readBy done).levels
        omega
      · exact ih.mp ⟨before, read⟩ after later
    · intro closed
      obtain ⟨now, read⟩ := ih.mpr fun after ending =>
        closed after (ending.trans (List.suffix_cons c rest))
      have counts := counts_of_readBy read
      have whole := closed _ List.suffix_rfl
      have levels := counts.levels
      have closable : c = '(' → now.inner ≠ [] := by
        rintro rfl empty
        rw [List.count_cons_self, List.count_cons_of_ne (by decide)] at whole
        rw [empty, List.length_nil] at levels
        omega
      obtain ⟨next, taken⟩ := exists_takePlain counts.outside closable
      exact ⟨next, by rw [readBy, read]; exact taken⟩

end Reader

/-- Where quotation marks are signs, a text can be read exactly if its parentheses match. -/
theorem matched_iff_reads :
    Matched text ↔ ReadsBy plainPieces? (fun _ => True) text := by
  have split {before after : List Char} (whole : before ++ after = text.toList) (c : Char) :
      text.toList.count c = before.count c + after.count c := by rw [← whole, List.count_append]
  constructor
  · rintro ⟨opened, same⟩
    obtain ⟨now, done⟩ := Reader.exists_readBy_iff.mpr fun after ending => by
      obtain ⟨before, whole⟩ := ending
      have bound := opened before ⟨after, whole⟩
      have openings := split whole '('
      have closings := split whole ')'
      omega
    have counts := Reader.counts_of_readBy done
    obtain ⟨quotation, inner, base⟩ := now
    obtain rfl : quotation = none := counts.outside
    have levels : inner.length + text.toList.count '(' = text.toList.count ')' := counts.levels
    obtain rfl : inner = [] := List.length_eq_zero_iff.mp (by omega)
    exact ⟨base, piecesBy_eq_some_iff.mpr done, fun _ _ => trivial⟩
  · rintro ⟨pieces, read, _⟩
    have done := piecesBy_eq_some_iff.mp read
    have levels := (Reader.counts_of_readBy done).levels
    rw [List.length_nil, Nat.zero_add] at levels
    refine ⟨?_, levels⟩
    rintro before ⟨after, whole⟩
    have bound := Reader.exists_readBy_iff.mp ⟨_, done⟩ after ⟨before, whole⟩
    have openings := split whole '('
    have closings := split whole ')'
    omega

end Matching

section Words

/-- Every piece that is no word ends in a character that belongs to no word, and begins with one. -/
theorem Piece.Shaped.bounds {piece : Piece} (shaped : piece.Shaped)
    (other : piece.isWord = false) :
    (∃ first rest, piece.chars = first :: rest ∧ isWordChar first = false) ∧
      ∃ rest last, piece.chars = rest ++ [last] ∧ isWordChar last = false := by
  match piece with
  | .word chars => contradiction
  | .sign c => exact ⟨⟨c, [], rfl, shaped⟩, [], c, rfl, shaped⟩
  | .quoted chars =>
    obtain ⟨mark, inner, isMark, same⟩ := shaped
    have noName : isWordChar mark = false := Bool.eq_false_iff.mpr fun name => by
      rw [isMark_eq_false_of_isWordChar name] at isMark
      contradiction
    exact ⟨⟨mark, _, same, noName⟩, mark :: inner, mark, same, noName⟩
  | .parens chars meaning =>
    obtain ⟨inner, same⟩ := shaped
    exact ⟨⟨'(', _, same, by decide⟩, '(' :: inner, ')', same, by decide⟩

/-- In front of a gap, or of nothing, a run of characters of words is a whole word. -/
theorem splitOnP_names {names after : List Char} (each : ∀ c ∈ names, isWordChar c = true)
    (apart : ∀ c ∈ after.head?, isGap c = true) :
    ∃ rest, (names ++ after).splitOnP isGap = names :: rest ∧
      after.splitOnP isGap = [] :: rest := by
  have whole : names.splitOnP isGap = [names] :=
    List.splitOnP_eq_singleton fun c inside => by rw [isGap, each c inside]; rfl
  cases after with
  | nil => exact ⟨[], by rw [List.append_nil, whole], rfl⟩
  | cons c more =>
    have gap := apart c rfl
    refine ⟨more.splitOnP isGap, ?_, ?_⟩
    · rw [List.splitOnP_append_cons _ _ gap, whole]
      rfl
    · rw [List.splitOnP_cons_eq_if_modifyHead, if_pos gap]

/-- Behind a word comes a gap. -/
theorem Formed.gap_behind {first : Piece} (formed : Formed (first :: pieces))
    (isWord : first.isWord = true) :
    ∀ c ∈ (pieces.flatMap Piece.chars).head?, isGap c = true := by
  cases pieces with
  | nil => exact nofun
  | cons next others =>
    have other : next.isWord = false := by
      have apart := (List.isChain_cons.mp formed.apart).1 next rfl
      rwa [isWord, Bool.true_and] at apart
    obtain ⟨⟨gap, more, begins, outside⟩, _⟩ :=
      (formed.tail.shaped next List.mem_cons_self).bounds other
    rintro c head
    rw [List.flatMap_cons, begins] at head
    obtain rfl := Option.some.inj head
    rw [isGap, outside]
    rfl

/-- A word of a text is as long as it can be. -/
theorem Formed.mem_splitOnP (formed : Formed pieces) (member : .word word ∈ pieces) :
    word ∈ (pieces.flatMap Piece.chars).splitOnP isGap := by
  induction pieces with
  | nil => contradiction
  | cons piece rest ih =>
    have shaped := formed.shaped piece List.mem_cons_self
    rw [List.flatMap_cons]
    cases isWord : piece.isWord with
    | false =>
      have later : .word word ∈ rest := by
        obtain rfl | later := List.mem_cons.mp member
        · contradiction
        · exact later
      obtain ⟨_, front, last, ends, outside⟩ := shaped.bounds isWord
      have gap : isGap last = true := by rw [isGap, outside]; rfl
      rw [ends, List.append_assoc, List.singleton_append, List.splitOnP_append_cons _ _ gap]
      exact List.mem_append_right _ (ih formed.tail later)
    | true =>
      obtain ⟨names, rfl⟩ : ∃ names, piece = .word names := by
        cases piece with
        | word names => exact ⟨names, rfl⟩
        | sign | quoted | parens => contradiction
      obtain ⟨others, split, behind⟩ := splitOnP_names shaped.2 (formed.gap_behind isWord)
      rw [Piece.chars, split]
      obtain same | later := List.mem_cons.mp member
      · obtain rfl := Piece.word.inj same
        exact List.mem_cons_self
      · have inside := ih formed.tail later
        rw [behind] at inside
        have filled : word ≠ [] := (formed.tail.shaped _ later).1
        exact List.mem_cons_of_mem _ ((List.mem_cons.mp inside).resolve_left filled)

end Words

namespace Lawful

/-- A text without connectives among its words is one operand. -/
theorem unjoined (laws : Lawful read?) (single : Unconnected text)
    (read : read? text.toList = some pieces) : ∀ piece ∈ pieces, piece.Unjoined := by
  intro piece member
  match piece with
  | .word word =>
    refine single word ?_
    have inside := (laws.formed read).mem_splitOnP member
    rwa [laws.chars read] at inside
  | .sign _ => exact ⟨rfl, rfl⟩
  | .quoted _ => exact ⟨rfl, rfl⟩
  | .parens _ _ => exact ⟨rfl, rfl⟩

end Lawful

section Tests

/-- An operand in parentheses opens them with its first visible character. -/
theorem Formed.head?_of_enclosed {meaning : Meaning} (formed : Formed pieces)
    (enclosed : enclosed? pieces = some meaning) :
    (Text.trimmed (pieces.flatMap Piece.chars)).head? = some '(' := by
  induction pieces with
  | nil => contradiction
  | cons piece rest ih =>
    cases blank : piece.isBlank with
    | true =>
      obtain ⟨c, rfl⟩ : ∃ c, piece = .sign c := by
        cases piece with
        | sign c => exact ⟨c, rfl⟩
        | word | quoted | parens => contradiction
      have same : enclosed? (.sign c :: rest) = enclosed? rest := by
        rw [enclosed?, List.filter_cons_of_neg (by simp [blank]), enclosed?]
      rw [List.flatMap_cons, Piece.chars, List.singleton_append, Text.trimmed_cons_of_isBlank blank]
      exact ih formed.tail (same.symm.trans enclosed)
    | false =>
      rw [enclosed?, List.filter_cons_of_pos (by simp [blank])] at enclosed
      have shaped := formed.shaped piece List.mem_cons_self
      cases piece with
      | parens chars inner =>
        obtain ⟨more, begins⟩ := shaped
        rw [List.flatMap_cons, Piece.chars, begins, List.cons_append]
        exact Text.head?_trimmed (by decide) _
      | word | sign | quoted => contradiction

/-- A text without a connective of its own, and without parentheses that it begins with, is a
test. -/
theorem Lawful.says_test (laws : Lawful read?) (reads : ReadsBy read? Piece.Unjoined text)
    (unopened : Unopened text) : saysBy read? truth text = truth (Text.trim text) := by
  obtain ⟨pieces, read, each⟩ := reads
  have chars := laws.chars read
  have none : enclosed? pieces = none := by
    rw [← Option.not_isSome_iff_eq_none, Option.isSome_iff_exists]
    rintro ⟨meaning, enclosed⟩
    have head := (laws.formed read).head?_of_enclosed enclosed
    rw [chars, ← Text.toList_trim] at head
    exact unopened head
  rw [saysBy_eq read, expression_eq_operand each, operand, none, Option.getD_none, chars]
  rfl

end Tests

end SelectCompiler.Boolean
