import Mathlib.Data.List.Basic
import SelectCompiler.Text.Blank

/-!
The words of a text are not empty and hold no blank, and a text that was put together from such
words has no others.
-/

namespace SelectCompiler

namespace Text

/-- What can be a word of a text. -/
def IsWord (word : String) : Prop :=
  word ≠ "" ∧ ∀ c ∈ word.toList, isBlank c = false

section Parts

variable {α : Type} {separates : α → Bool} {part list : List α}

theorem run_of_mem_splitOnP (member : part ∈ list.splitOnP separates) :
    (∀ x ∈ part, separates x = false) ∧ ∃ before after, list = before ++ (part ++ after) ∧
      (∀ x ∈ before.getLast?, separates x = true) ∧ ∀ x ∈ after.head?, separates x = true := by
  -- Induction on the length: what follows the first separator is split in the same way.
  induction length : list.length using Nat.strongRecOn generalizing list with
  | ind _ ih =>
    cases found : list.find? separates with
    | none =>
      have plain : ∀ x ∈ list, separates x = false := by simpa using found
      rw [List.splitOnP_eq_singleton plain, List.mem_singleton] at member
      subst member
      exact ⟨plain, [], [], by simp, by simp, by simp⟩
    | some separator =>
      obtain ⟨ends, first, rest, rfl, before⟩ := List.find?_eq_some_iff_append.mp found
      have plain : ∀ x ∈ first, separates x = false := by simpa using before
      rw [List.splitOnP_append_cons_of_forall_mem plain _ ends] at member
      obtain rfl | later := List.mem_cons.mp member
      · exact ⟨plain, [], separator :: rest, rfl, by simp, by simpa using ends⟩
      · have shorter : rest.length < (first ++ separator :: rest).length := by
          rw [List.length_append, List.length_cons]
          omega
        obtain ⟨own, front, after, rfl, starts, stops⟩ := ih _ (length ▸ shorter) later rfl
        refine ⟨own, first ++ [separator] ++ front, after, by simp, ?_, stops⟩
        intro x last
        rw [Option.mem_def, List.getLast?_append, List.getLast?_concat, Option.or_eq_some_iff]
          at last
        obtain inside | ⟨_, same⟩ := last
        · exact starts x inside
        · exact Option.some.inj same ▸ ends

/-- The parts of a split list are its runs without separators, each from one separator, or from
the start, to the next one or to the end. -/
theorem mem_splitOnP_iff :
    part ∈ list.splitOnP separates ↔
      (∀ x ∈ part, separates x = false) ∧ ∃ before after, list = before ++ (part ++ after) ∧
        (∀ x ∈ before.getLast?, separates x = true) ∧ ∀ x ∈ after.head?, separates x = true := by
  refine ⟨run_of_mem_splitOnP, ?_⟩
  rintro ⟨plain, before, after, rfl, starts, stops⟩
  have here : part ∈ (part ++ after).splitOnP separates := by
    cases after with
    | nil => simp [List.splitOnP_eq_singleton plain]
    | cons x rest =>
      rw [List.splitOnP_append_cons_of_forall_mem plain x (stops x rfl)]
      exact List.mem_cons_self
  obtain rfl | ⟨others, x, rfl⟩ := before.eq_nil_or_concat'
  · exact here
  · rw [List.append_assoc, List.singleton_append,
      List.splitOnP_append_cons _ _ (starts x List.getLast?_concat)]
    exact List.mem_append_right _ here

end Parts

theorem isWord_of_mem_words {word text : String} (member : word ∈ words text) : IsWord word := by
  obtain ⟨chars, kept, rfl⟩ := List.mem_map.mp member
  obtain ⟨part, filled⟩ := List.mem_filter.mp kept
  refine ⟨?_, ?_⟩
  · intro empty
    rw [String.ofList_eq_empty_iff.mp empty] at filled
    contradiction
  · rw [String.toList_ofList]
    exact (mem_splitOnP_iff.mp part).1

@[simp] theorem words_empty : words "" = [] := by simp [words]

theorem words_of_isWord {word : String} (single : IsWord word) : words word = [word] := by
  have filled : word.toList.isEmpty = false := by
    rw [List.isEmpty_eq_false_iff, Ne, String.toList_eq_nil_iff]
    exact single.1
  simp [words, List.splitOnP_eq_singleton single.2, filled]

section Gaps

variable {before gap after : String}

/-- Blanks in front of a text add no word. -/
theorem words_blanks_append (blank : ∀ c ∈ gap.toList, isBlank c = true) (after : String) :
    words (gap ++ after) = words after := by
  have skipped (lead : List Char) (blank : ∀ c ∈ lead, isBlank c = true) :
      ((lead ++ after.toList).splitOnP isBlank).filter (!·.isEmpty) =
        (after.toList.splitOnP isBlank).filter (!·.isEmpty) := by
    induction lead with
    | nil => rfl
    | cons c rest ih =>
      obtain ⟨first, others⟩ := List.forall_mem_cons.mp blank
      rw [List.cons_append, List.splitOnP_cons_eq_if_modifyHead, if_pos first,
        List.filter_cons_of_neg (by simp), ih others]
  rw [words, String.toList_append, skipped _ blank, words]

/-- A gap ends the words before it, and others begin behind it. -/
theorem words_append_gap (filled : gap ≠ "") (blank : ∀ c ∈ gap.toList, isBlank c = true) :
    words (before ++ gap ++ after) = words before ++ words after := by
  obtain ⟨c, rest, chars⟩ := List.exists_cons_of_ne_nil (mt String.toList_eq_nil_iff.mp filled)
  rw [chars, List.forall_mem_cons] at blank
  have whole : (before ++ gap ++ after).toList =
      before.toList ++ c :: (String.ofList rest ++ after).toList := by
    simp [chars]
  have split : words (before ++ gap ++ after) =
      words before ++ words (String.ofList rest ++ after) := by
    rw [words, whole, List.splitOnP_append_cons _ _ blank.1, List.filter_append, List.map_append]
    rfl
  rw [split, words_blanks_append (by rw [String.toList_ofList]; exact blank.2)]

/-- Blanks behind a text add no word. -/
theorem words_append_blanks (before : String) (blank : ∀ c ∈ gap.toList, isBlank c = true) :
    words (before ++ gap) = words before := by
  by_cases empty : gap = ""
  · rw [empty, String.append_empty]
  · have split : words (before ++ gap ++ "") = words before ++ words "" :=
      words_append_gap empty blank
    rwa [String.append_empty, words_empty, List.append_nil] at split

end Gaps

/-- Texts with a separator between them are the first one and each other behind a separator. -/
theorem intercalate_cons (separator first : String) (rest : List String) :
    separator.intercalate (first :: rest) =
      first ++ String.join (rest.map (separator ++ ·)) := by
  induction rest generalizing first with
  | nil => simp
  | cons next rest ih =>
    rw [String.intercalate_cons_cons, ih, List.map_cons, String.join_cons, String.append_assoc,
      String.append_assoc]

theorem words_intercalate {list : List String} (each : ∀ word ∈ list, IsWord word) :
    words (" ".intercalate list) = list := by
  induction list with
  | nil => simp [words]
  | cons word rest ih =>
    have first := words_of_isWord (each word List.mem_cons_self)
    have others := ih fun other member => each other (List.mem_cons_of_mem _ member)
    by_cases last : rest = []
    · rw [last, String.intercalate_singleton, first]
    · have blank : ∀ c ∈ " ".toList, isBlank c = true := List.all_eq_true.mp (by decide)
      rw [String.intercalate_cons_of_ne_nil last, words_append_gap (by decide) blank, first, others]
      rfl

@[simp] theorem words_squeeze (text : String) : words (squeeze text) = words text :=
  words_intercalate fun _ member => isWord_of_mem_words member

end Text

end SelectCompiler
