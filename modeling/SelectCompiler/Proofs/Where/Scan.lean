import Mathlib.Data.List.TakeWhile
import SelectCompiler.Proofs.Text.Numeral
import SelectCompiler.Where.Placeholder

/-!
How the scan for placeholders sees text that was put together from pieces. It reads the pieces one
by one as long as no piece starts with a digit, a written index is read back, and the blanks that
trimming drops hide nothing from it.
-/

namespace SelectCompiler

namespace Placeholder

theorem leadingDigits_cons {c : Char} (other : c.isDigit = false) (rest : List Char) :
    leadingDigits (c :: rest) = [] := by
  simp [leadingDigits, other]

theorem leadingDigits_append (first : List Char) {second : List Char}
    (apart : leadingDigits second = []) :
    leadingDigits (first ++ second) = leadingDigits first := by
  induction first with
  | nil => exact apart
  | cons c rest ih =>
    simp only [leadingDigits, List.cons_append, List.takeWhile_cons] at ih ⊢
    rw [ih]

/-- No percent sign at the end of one piece takes digits from the next. -/
theorem scan_append (first : List Char) {second : List Char}
    (apart : leadingDigits second = []) : scan (first ++ second) = scan first ++ scan second := by
  induction first with
  | nil => rfl
  | cons c rest ih =>
    simp only [List.cons_append, scan, ih, leadingDigits_append rest apart]
    split
    · rw [List.append_assoc]
    · rfl

theorem scan_append_of_plain {first : List Char} (plain : '%' ∉ first) (second : List Char) :
    scan (first ++ second) = scan second := by
  induction first with
  | nil => rfl
  | cons c rest ih =>
    rw [List.mem_cons, not_or] at plain
    rw [List.cons_append, scan, if_neg (Ne.symm plain.1), ih plain.2]

theorem scan_eq_nil_of_plain {chars : List Char} (plain : '%' ∉ chars) : scan chars = [] := by
  simpa [scan] using scan_append_of_plain plain []

theorem indices_append (first : String) {second : String}
    (apart : leadingDigits second.toList = []) :
    indices (first ++ second) = indices first ++ indices second := by
  rw [indices, String.toList_append, scan_append _ apart]
  rfl

theorem indices_append_of_plain {first : String} (plain : '%' ∉ first.toList) (second : String) :
    indices (first ++ second) = indices second := by
  rw [indices, String.toList_append, scan_append_of_plain plain]
  rfl

theorem indices_eq_nil_of_plain {text : String} (plain : '%' ∉ text.toList) : indices text = [] :=
  scan_eq_nil_of_plain plain

/-- Text that no placeholder takes part in: it holds no percent sign and starts with no digit. -/
def Glue (text : String) : Prop :=
  text.toList.head?.any (fun c => !c.isDigit) = true ∧ '%' ∉ text.toList

instance (text : String) : Decidable (Glue text) := inferInstanceAs (Decidable (_ ∧ _))

section Glue

variable {glue : String}

theorem leadingDigits_of_glue (apart : Glue glue) (second : String) :
    leadingDigits (glue ++ second).toList = [] := by
  rw [String.toList_append]
  cases chars : glue.toList with
  | nil =>
    have nonempty := apart.1
    rw [chars] at nonempty
    contradiction
  | cons c rest =>
    have other := apart.1
    rw [chars, List.head?_cons, Option.any_some, Bool.not_eq_true'] at other
    exact leadingDigits_cons other _

/-- The pieces around a text that no placeholder takes part in are scanned one after the other. -/
theorem indices_glue (apart : Glue glue) (first second : String) :
    indices (first ++ glue ++ second) = indices first ++ indices second := by
  rw [String.append_assoc, indices_append _ (leadingDigits_of_glue apart second),
    indices_append_of_plain apart.2]

theorem indices_intercalate (apart : Glue glue) (texts : List String) :
    indices (glue.intercalate texts) = texts.flatMap indices := by
  induction texts with
  | nil => rfl
  | cons first rest ih =>
    by_cases last : rest = []
    · rw [last, String.intercalate_singleton, List.flatMap_singleton]
    · rw [String.intercalate_cons_of_ne_nil last, indices_glue apart, ih, List.flatMap_cons]

end Glue

section Written

variable {index : Nat}

theorem percent_not_mem_repr : '%' ∉ index.repr.toList := by
  intro member
  have digit := Text.isDigit_of_mem_repr _ member
  contradiction

/-- A written index is the only thing that the scan finds in it. -/
theorem indices_write (fits : index < Text.wordSize) : indices (write index) = [index] := by
  have digits : leadingDigits index.repr.toList = index.repr.toList :=
    List.takeWhile_eq_self_iff.mpr Text.isDigit_of_mem_repr
  have start : (write index).toList = '%' :: index.repr.toList := by
    rw [write, String.toList_append]
    rfl
  rw [indices, start, scan, if_pos rfl, digits, Text.word?_repr fits,
    scan_eq_nil_of_plain percent_not_mem_repr]
  rfl

end Written

theorem leadingDigits_of_blank {chars : List Char} (blank : ∀ c ∈ chars, Text.isBlank c = true) :
    leadingDigits chars = [] := by
  cases chars with
  | nil => rfl
  | cons c rest => exact leadingDigits_cons (Text.not_isDigit_of_isBlank (blank c (by simp))) rest

theorem percent_not_mem_of_blank {chars : List Char}
    (blank : ∀ c ∈ chars, Text.isBlank c = true) : '%' ∉ chars := by
  intro member
  have percent := blank _ member
  rw [Text.not_isBlank_percent] at percent
  contradiction

/-- The blanks around a text hide no placeholder and split none. -/
theorem indices_trim (text : String) : indices (Text.trim text) = indices text := by
  obtain ⟨lead, trail, split, leading, trailing⟩ := Text.exists_trimmed text.toList
  rw [indices, indices, Text.toList_trim]
  symm
  calc
    scan text.toList = scan (lead ++ (Text.trimmed text.toList ++ trail)) := congrArg scan split
    _ = scan (Text.trimmed text.toList ++ trail) :=
      scan_append_of_plain (percent_not_mem_of_blank leading) _
    _ = scan (Text.trimmed text.toList) ++ scan trail :=
      scan_append _ (leadingDigits_of_blank trailing)
    _ = scan (Text.trimmed text.toList) := by
      rw [scan_eq_nil_of_plain (percent_not_mem_of_blank trailing), List.append_nil]

end Placeholder

end SelectCompiler
