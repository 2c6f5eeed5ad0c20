import Mathlib.Data.List.DropRight
import Mathlib.Data.List.TakeWhile
import SelectCompiler.Text.Blank

/-!
Trimming splits a text into blanks, what is kept, and blanks; what is kept neither starts nor ends
with a blank, so trimming it again changes nothing.
-/

namespace SelectCompiler

namespace Text

theorem not_isDigit_of_isBlank {c : Char} (blank : isBlank c = true) : c.isDigit = false := by
  simp only [isBlank, blankRanges, List.any_cons, List.any_nil, Bool.or_false, Bool.or_eq_true,
    Bool.and_eq_true, decide_eq_true_eq] at blank
  rw [Bool.eq_false_iff, Ne, Char.isDigit_iff_toNat]
  change ¬(48 ≤ c.toNat ∧ c.toNat ≤ 57)
  omega

theorem isBlank_of_isDigit {c : Char} (digit : c.isDigit = true) : isBlank c = false := by
  rw [Bool.eq_false_iff]
  intro blank
  rw [not_isDigit_of_isBlank blank] at digit
  contradiction

theorem not_isBlank_percent : isBlank '%' = false := by decide

section Ends

variable {α : Type} (drops : α → Bool) (list : List α)

theorem exists_ends :
    ∃ lead trail, list = lead ++ ((list.dropWhile drops).rdropWhile drops ++ trail) ∧
      (∀ x ∈ lead, drops x = true) ∧ ∀ x ∈ trail, drops x = true := by
  refine ⟨list.takeWhile drops, ((list.dropWhile drops).reverse.takeWhile drops).reverse,
    ?_, ?_, ?_⟩
  · rw [List.rdropWhile, ← List.reverse_append, List.takeWhile_append_dropWhile,
      List.reverse_reverse, List.takeWhile_append_dropWhile]
  · exact List.all_eq_true.mp List.all_takeWhile
  · intro x member
    exact List.all_eq_true.mp List.all_takeWhile x (List.mem_reverse.mp member)

theorem dropWhile_rdropWhile_dropWhile :
    ((list.dropWhile drops).rdropWhile drops).dropWhile drops =
      (list.dropWhile drops).rdropWhile drops := by
  have front : (list.dropWhile drops).rdropWhile drops <+: list.dropWhile drops :=
    List.rdropWhile_prefix drops _
  cases kept : (list.dropWhile drops).rdropWhile drops with
  | nil => rfl
  | cons x rest =>
    obtain ⟨trail, split⟩ := front
    have first := List.head?_dropWhile_not drops list
    rw [← split, kept] at first
    have stays : drops x = false := by simpa using first
    simp [stays]

end Ends

/-- Trimming splits a text into blanks, what is kept, and blanks. -/
theorem exists_trimmed (chars : List Char) :
    ∃ lead trail, chars = lead ++ (trimmed chars ++ trail) ∧
      (∀ c ∈ lead, isBlank c = true) ∧ ∀ c ∈ trail, isBlank c = true :=
  exists_ends isBlank chars

theorem dropWhile_trimmed (chars : List Char) :
    (trimmed chars).dropWhile isBlank = trimmed chars :=
  dropWhile_rdropWhile_dropWhile isBlank chars

theorem trimmed_cons_of_isBlank {c : Char} (blank : isBlank c = true) (chars : List Char) :
    trimmed (c :: chars) = trimmed chars := by
  rw [trimmed, List.dropWhile_cons_of_pos blank, trimmed]

theorem trimmed_concat_of_isBlank {c : Char} (blank : isBlank c = true) (chars : List Char) :
    trimmed (chars ++ [c]) = trimmed chars := by
  rw [trimmed, List.dropWhile_append, trimmed]
  split
  · rename_i nothing
    rw [List.isEmpty_iff.mp nothing, List.dropWhile_cons_of_pos blank, List.dropWhile_nil]
  · rw [List.reverse_append, List.reverse_singleton, List.singleton_append,
      List.dropWhile_cons_of_pos blank]

theorem trimmed_append_blanks {trail : List Char} (blank : ∀ c ∈ trail, isBlank c = true)
    (chars : List Char) : trimmed (chars ++ trail) = trimmed chars := by
  induction trail using List.reverseRecOn with
  | nil => rw [List.append_nil]
  | append_singleton others c ih =>
    obtain ⟨before, last⟩ := List.forall_mem_append.mp blank
    rw [← List.append_assoc, trimmed_concat_of_isBlank (last c (List.mem_singleton_self c)),
      ih before]

theorem trimmed_blanks_append {lead : List Char} (blank : ∀ c ∈ lead, isBlank c = true)
    (chars : List Char) : trimmed (lead ++ chars) = trimmed chars := by
  induction lead with
  | nil => rfl
  | cons c rest ih =>
    obtain ⟨first, others⟩ := List.forall_mem_cons.mp blank
    rw [List.cons_append, trimmed_cons_of_isBlank first, ih others]

/-- Blanks around a text are trimmed away. -/
theorem trim_padded {lead trail : String} (leading : ∀ c ∈ lead.toList, isBlank c = true)
    (trailing : ∀ c ∈ trail.toList, isBlank c = true) (text : String) :
    trim (lead ++ text ++ trail) = trim text := by
  rw [trim, String.toList_append, String.toList_append, trimmed_append_blanks trailing,
    trimmed_blanks_append leading, trim]

/-- What begins with a visible character still begins with it. -/
theorem head?_trimmed {c : Char} (visible : isBlank c = false) (rest : List Char) :
    (trimmed (c :: rest)).head? = some c := by
  have front : (c :: rest).dropWhile isBlank = c :: rest :=
    List.dropWhile_cons_of_neg (by rw [visible]; exact Bool.false_ne_true)
  rw [trimmed, front, List.reverse_cons, List.dropWhile_append]
  split
  · simp [visible]
  · simp

@[simp] theorem trimmed_trimmed (chars : List Char) : trimmed (trimmed chars) = trimmed chars := by
  rw [trimmed, dropWhile_trimmed, trimmed, List.reverse_reverse, List.dropWhile_idempotent]

@[simp] theorem trim_trim (text : String) : trim (trim text) = trim text := by
  rw [trim, toList_trim, trimmed_trimmed]
  rfl

theorem trimmed_eq_self_iff {chars : List Char} :
    trimmed chars = chars ↔
      chars.dropWhile isBlank = chars ∧ chars.rdropWhile isBlank = chars := by
  constructor
  · intro kept
    have front : chars.dropWhile isBlank = chars := by
      conv => lhs; rw [← kept]
      rw [dropWhile_trimmed, kept]
    refine ⟨front, ?_⟩
    conv => rhs; rw [← kept, trimmed, front]
    rfl
  · rintro ⟨front, back⟩
    rw [trimmed, front]
    exact back

/-- There is nothing to trim if no blank is at either end. -/
theorem trim_eq_self_iff {text : String} :
    trim text = text ↔
      (∀ c ∈ text.toList.head?, isBlank c = false) ∧
        ∀ c ∈ text.toList.getLast?, isBlank c = false := by
  rw [← String.toList_inj, toList_trim, trimmed_eq_self_iff, List.dropWhile_eq_self_iff,
    List.rdropWhile_eq_self_iff]
  by_cases empty : text.toList = []
  · simp [empty]
  · rw [List.head?_eq_some_head empty, List.getLast?_eq_some_getLast empty]
    simp [empty, List.length_pos_iff, List.head_eq_getElem]

/-- Two texts without blanks around them, and a blank between them, have no blanks around them. -/
theorem trim_append_blank {first second : String} (kept : trim first = first) (filled : first ≠ "")
    (keptToo : trim second = second) (filledToo : second ≠ "") :
    trim (first ++ " " ++ second) = first ++ " " ++ second := by
  have nonempty : first.toList ≠ [] := by rwa [Ne, String.toList_eq_nil_iff]
  have nonemptyToo : second.toList ≠ [] := by rwa [Ne, String.toList_eq_nil_iff]
  have chars : (first ++ " " ++ second).toList = first.toList ++ ([' '] ++ second.toList) := by
    simp
  rw [trim_eq_self_iff, chars, List.head?_append_of_ne_nil _ nonempty,
    List.getLast?_append_of_ne_nil _ (by simp), List.getLast?_append_of_ne_nil _ nonemptyToo]
  exact ⟨(trim_eq_self_iff.mp kept).1, (trim_eq_self_iff.mp keptToo).2⟩

theorem trim_parenthesized (text : String) : trim ("(" ++ text ++ ")") = "(" ++ text ++ ")" := by
  have opening : isBlank '(' = false := by decide
  have closing : isBlank ')' = false := by decide
  have last : ("(" ++ text ++ ")").toList.getLast? = some ')' := by
    rw [String.toList_append]
    exact List.getLast?_concat
  rw [trim_eq_self_iff, last, String.toList_append, String.toList_append]
  simp [opening, closing]

theorem trim_empty : trim "" = "" := by decide +kernel

theorem trim_space : trim " " = "" := by decide +kernel

/-- A text has something left when it is trimmed exactly if some character of it is not blank. -/
theorem trim_ne_empty_iff {text : String} :
    trim text ≠ "" ↔ ∃ c ∈ text.toList, isBlank c = false := by
  have chars : trim text = "" ↔ trimmed text.toList = [] := by
    rw [← String.toList_eq_nil_iff, toList_trim]
  rw [Ne, chars]
  constructor
  · intro kept
    by_contra blank
    have nothing : text.toList.dropWhile isBlank = [] := by
      rw [List.dropWhile_eq_nil_iff]
      intro c member
      by_contra visible
      exact blank ⟨c, member, Bool.eq_false_iff.mpr visible⟩
    exact kept (by rw [trimmed, nothing]; rfl)
  · rintro ⟨c, member, visible⟩ nothing
    obtain ⟨lead, trail, split, before, behind⟩ := exists_trimmed text.toList
    rw [nothing, List.nil_append] at split
    rw [split, List.mem_append] at member
    have blank : isBlank c = true := member.elim (before c) (behind c)
    rw [blank] at visible
    contradiction

theorem trim_append_ne_empty {first : String} (visible : trim first ≠ "") (second : String) :
    trim (first ++ second) ≠ "" := by
  obtain ⟨c, member, shows⟩ := trim_ne_empty_iff.mp visible
  exact trim_ne_empty_iff.mpr
    ⟨c, by rw [String.toList_append]; exact List.mem_append_left _ member, shows⟩

theorem trim_of_visible {text : String} (visible : ∀ c ∈ text.toList, isBlank c = false) :
    trim text = text := by
  rw [trim_eq_self_iff]
  constructor
  · intro c first
    exact visible c (List.mem_of_mem_head? first)
  · intro c last
    exact visible c (List.mem_of_mem_getLast? last)

/-- No blank has a case. -/
theorem toLower_of_isBlank {c : Char} (blank : isBlank c = true) : c.toLower = c := by
  simp only [isBlank, blankRanges, List.any_cons, List.any_nil, Bool.or_false, Bool.or_eq_true,
    Bool.and_eq_true, decide_eq_true_eq] at blank
  have small : ¬(c.val ≥ 'A'.val ∧ c.val ≤ 'Z'.val) := by
    change ¬(65 ≤ c.toNat ∧ c.toNat ≤ 90)
    omega
  exact dif_neg small

end Text

end SelectCompiler
