import SelectCompiler.Proofs.Where.Scan

/-!
How placeholders are rewritten in text that was put together from pieces. As with the scan, the
pieces are rewritten one by one as long as no piece starts with a digit. A text in which the scan
finds no index that has a position is kept, and of a text in which every index has its place in
the list as its position the placeholders are numbered one after the other.
-/

namespace SelectCompiler

namespace Placeholder

variable {position? : Nat → Option Nat} {chars first second : List Char} {text : String}

/-- The placeholder of the given position, counted from one. -/
def dollar (position : Nat) : String := "$" ++ position.repr

/-- What is written for the placeholder of an index. -/
def rewritten (position? : Nat → Option Nat) (index : Nat) : String :=
  (position? index).elim (write index) dollar

theorem dropWhile_digits_append (first : List Char) (apart : leadingDigits second = []) :
    (first ++ second).dropWhile Char.isDigit = first.dropWhile Char.isDigit ++ second := by
  induction first with
  | nil =>
    cases second with
    | nil => rfl
    | cons c rest =>
      have other : c.isDigit = false := by
        rw [Bool.eq_false_iff]
        intro digit
        simp [leadingDigits, digit] at apart
      simp [other]
  | cons c rest ih =>
    by_cases digit : c.isDigit = true
    · rw [List.cons_append, List.dropWhile_cons_of_pos digit, ih, List.dropWhile_cons_of_pos digit]
    · rw [List.cons_append, List.dropWhile_cons_of_neg digit, List.dropWhile_cons_of_neg digit,
        List.cons_append]

theorem renumberChars_cons_of_ne {c : Char} (other : c ≠ '%') (rest : List Char) :
    renumberChars position? (c :: rest) = c :: renumberChars position? rest := by
  rw [renumberChars, if_neg other]

theorem renumberChars_percent_of_none {rest : List Char}
    (free : (Text.word? (leadingDigits rest)).bind position? = none) :
    renumberChars position? ('%' :: rest) = '%' :: renumberChars position? rest := by
  rw [renumberChars, if_pos rfl, free]

theorem renumberChars_percent_of_some {rest : List Char} {position : Nat}
    (taken : (Text.word? (leadingDigits rest)).bind position? = some position) :
    renumberChars position? ('%' :: rest) =
      (dollar position).toList ++ renumberChars position? (rest.dropWhile Char.isDigit) := by
  rw [renumberChars, if_pos rfl, taken, dollar, String.toList_append]
  rfl

/-- No placeholder at the end of one piece takes digits from the next. -/
theorem renumberChars_append (first : List Char) (apart : leadingDigits second = []) :
    renumberChars position? (first ++ second) =
      renumberChars position? first ++ renumberChars position? second := by
  fun_induction renumberChars position? first with
  | case1 => rfl
  | case2 rest position taken ih =>
    have taken : (Text.word? (leadingDigits (rest ++ second))).bind position? = some position := by
      rw [leadingDigits_append rest apart]
      exact taken
    rw [List.cons_append, renumberChars_percent_of_some taken, dropWhile_digits_append rest apart,
      ih, ← List.append_assoc, dollar, String.toList_append]
    rfl
  | case3 rest free ih =>
    have free : (Text.word? (leadingDigits (rest ++ second))).bind position? = none := by
      rw [leadingDigits_append rest apart]
      exact free
    rw [List.cons_append, renumberChars_percent_of_none free, ih, List.cons_append]
  | case4 c rest other ih =>
    rw [List.cons_append, renumberChars_cons_of_ne other, ih, List.cons_append]

theorem renumberChars_append_of_plain (plain : '%' ∉ first) (second : List Char) :
    renumberChars position? (first ++ second) = first ++ renumberChars position? second := by
  induction first with
  | nil => rfl
  | cons c rest ih =>
    rw [List.mem_cons, not_or] at plain
    rw [List.cons_append, renumberChars_cons_of_ne (Ne.symm plain.1), ih plain.2, List.cons_append]

theorem renumber_append (first : String) {second : String}
    (apart : leadingDigits second.toList = []) :
    renumber position? (first ++ second) =
      renumber position? first ++ renumber position? second := by
  rw [renumber, String.toList_append, renumberChars_append _ apart, String.ofList_append]
  rfl

theorem renumber_append_of_plain {first : String} (plain : '%' ∉ first.toList) (second : String) :
    renumber position? (first ++ second) = first ++ renumber position? second := by
  rw [renumber, String.toList_append, renumberChars_append_of_plain plain, String.ofList_append,
    String.ofList_toList]
  rfl

/-- The pieces around a text that no placeholder takes part in are rewritten one by one. -/
theorem renumber_glue {glue : String} (apart : Glue glue) (first second : String) :
    renumber position? (first ++ glue ++ second) =
      renumber position? first ++ glue ++ renumber position? second := by
  rw [String.append_assoc, renumber_append _ (leadingDigits_of_glue apart second),
    renumber_append_of_plain apart.2, String.append_assoc]

/-- The digits behind a percent sign hold no placeholder of their own. -/
theorem scan_dropWhile_digits (chars : List Char) :
    scan (chars.dropWhile Char.isDigit) = scan chars := by
  induction chars with
  | nil => rfl
  | cons c rest ih =>
    by_cases digit : c.isDigit = true
    · have other : c ≠ '%' := by
        rintro rfl
        contradiction
      rw [List.dropWhile_cons_of_pos digit, ih, scan, if_neg other]
    · rw [List.dropWhile_cons_of_neg digit]

theorem scan_percent (rest : List Char) :
    scan ('%' :: rest) = (Text.word? (leadingDigits rest)).toList ++ scan rest := by
  rw [scan, if_pos rfl]

/-- A text is kept if no index that the scan finds in it has a position. -/
theorem renumberChars_eq_self (free : ∀ index ∈ scan chars, position? index = none) :
    renumberChars position? chars = chars := by
  induction chars with
  | nil => rw [renumberChars]
  | cons c rest ih =>
    by_cases percent : c = '%'
    · subst percent
      rw [scan_percent] at free
      have unplaced : (Text.word? (leadingDigits rest)).bind position? = none := by
        cases found : Text.word? (leadingDigits rest) with
        | none => rfl
        | some index => exact free index (by simp [found])
      rw [renumberChars_percent_of_none unplaced,
        ih fun index member => free index (List.mem_append_right _ member)]
    · rw [scan, if_neg percent] at free
      rw [renumberChars_cons_of_ne percent, ih free]

theorem renumber_eq_self (free : ∀ index ∈ indices text, position? index = none) :
    renumber position? text = text := by
  rw [renumber, renumberChars_eq_self free, String.ofList_toList]

theorem renumber_write {index : Nat} (fits : index < Text.wordSize) :
    renumber position? (write index) = rewritten position? index := by
  have digits : leadingDigits index.repr.toList = index.repr.toList :=
    List.takeWhile_eq_self_iff.mpr Text.isDigit_of_mem_repr
  have ending : index.repr.toList.dropWhile Char.isDigit = [] :=
    List.dropWhile_eq_nil_iff.mpr Text.isDigit_of_mem_repr
  have start : (write index).toList = '%' :: index.repr.toList := by
    rw [write, String.toList_append]
    rfl
  cases placed : position? index with
  | none =>
    rw [renumber_eq_self, rewritten, placed]
    · rfl
    · intro other member
      rw [indices_write fits, List.mem_singleton] at member
      rw [member, placed]
  | some position =>
    have taken : (Text.word? (leadingDigits index.repr.toList)).bind position? = some position := by
      rw [digits, Text.word?_repr fits]
      exact placed
    rw [renumber, start, renumberChars_percent_of_some taken, ending, renumberChars,
      List.append_nil, String.ofList_toList, rewritten, placed]
    rfl

section Rest

/-- Rewriting keeps the digits at the front and puts none there. -/
theorem leadingDigits_renumberChars (chars : List Char) :
    leadingDigits (renumberChars position? chars) = leadingDigits chars := by
  induction chars with
  | nil => rw [renumberChars]
  | cons c rest ih =>
    by_cases percent : c = '%'
    · subst percent
      rw [leadingDigits_cons (by decide) rest]
      cases taken : (Text.word? (leadingDigits rest)).bind position? with
      | none =>
        rw [renumberChars_percent_of_none taken]
        exact leadingDigits_cons (by decide) _
      | some position =>
        rw [renumberChars_percent_of_some taken, dollar, String.toList_append]
        exact leadingDigits_cons (by decide) _
    · rw [renumberChars_cons_of_ne percent]
      by_cases digit : c.isDigit = true
      · simp only [leadingDigits, List.takeWhile_cons, digit, ↓reduceIte] at ih ⊢
        rw [ih]
      · have other : c.isDigit = false := Bool.eq_false_iff.mpr digit
        rw [leadingDigits_cons other, leadingDigits_cons other]

theorem percent_not_mem_dollar (position : Nat) : '%' ∉ (dollar position).toList := by
  rw [dollar, String.toList_append, List.mem_append, not_or]
  constructor
  · decide
  · exact percent_not_mem_repr

/-- What the scan finds in a rewritten text are the indices without a position. -/
theorem scan_renumberChars (chars : List Char) :
    scan (renumberChars position? chars) =
      (scan chars).filter fun index => (position? index).isNone := by
  fun_induction renumberChars position? chars with
  | case1 => rfl
  | case2 rest position taken ih =>
    obtain ⟨index, word, placed⟩ := Option.bind_eq_some_iff.mp taken
    have start : '$' :: position.repr.toList = (dollar position).toList := by
      rw [dollar, String.toList_append]
      rfl
    rw [start, scan_append_of_plain (percent_not_mem_dollar position), ih, scan_dropWhile_digits,
      scan_percent, word, Option.toList_some, List.singleton_append,
      List.filter_cons_of_neg (by simp [placed])]
  | case3 rest free ih =>
    rw [scan_percent, leadingDigits_renumberChars, ih, scan_percent, List.filter_append]
    congr 1
    cases word : Text.word? (leadingDigits rest) with
    | none => rfl
    | some index =>
      rw [word] at free
      have unplaced : position? index = none := free
      simp [unplaced]
  | case4 c rest other ih =>
    rw [scan, if_neg other, ih, scan, if_neg other]

theorem indices_renumber (text : String) :
    indices (renumber position? text) =
      (indices text).filter fun index => (position? index).isNone := by
  rw [indices, renumber, String.toList_ofList, scan_renumberChars, indices]

end Rest

section InOrder

/-- Write `$position`, `$(position + 1)` and so on for the placeholders of a text, one after the
other and whatever their indices are; all other text is kept. -/
def numberChars (position : Nat) : List Char → List Char
  | [] => []
  | c :: rest =>
    if c = '%' ∧ (Text.word? (leadingDigits rest)).isSome then
      (dollar position).toList ++ numberChars (position + 1) (rest.dropWhile Char.isDigit)
    else c :: numberChars position rest
termination_by chars => chars.length
decreasing_by
  · have := (List.dropWhile_sublist Char.isDigit (l := rest)).length_le
    simp
    omega
  · simp

/-- The text in which the first placeholder is `$1`, the second `$2` and so on. -/
def numbered (text : String) : String :=
  String.ofList (numberChars 1 text.toList)

theorem renumberChars_eq_numberChars (start : Nat)
    (placed : (scan chars).map position? = (List.range' start (scan chars).length).map some) :
    renumberChars position? chars = numberChars start chars := by
  fun_induction numberChars start chars with
  | case1 => rw [renumberChars]
  | case2 start c rest found ih =>
    obtain ⟨rfl, isSome⟩ := found
    obtain ⟨index, word⟩ := Option.isSome_iff_exists.mp isSome
    rw [scan_percent, word, Option.toList_some, List.singleton_append, List.map_cons,
      List.length_cons, List.range'_succ, List.map_cons, List.cons.injEq] at placed
    rw [renumberChars_percent_of_some (by rw [word]; exact placed.1), ih]
    rw [scan_dropWhile_digits]
    exact placed.2
  | case3 start c rest plain ih =>
    by_cases percent : c = '%'
    · subst percent
      have word : Text.word? (leadingDigits rest) = none := by
        rw [← Option.not_isSome_iff_eq_none]
        intro isSome
        exact plain ⟨rfl, isSome⟩
      rw [scan_percent, word, Option.toList_none, List.nil_append] at placed
      rw [renumberChars_percent_of_none (by rw [word]; rfl), ih placed]
    · rw [scan, if_neg percent] at placed
      rw [renumberChars_cons_of_ne percent, ih placed]

/-- If the indices of a text have the positions one, two and so on in the order in which they are
found, its placeholders are numbered in order. -/
theorem renumber_eq_numbered
    (placed : (indices text).map position? = (List.range' 1 (indices text).length).map some) :
    renumber position? text = numbered text := by
  rw [renumber, renumberChars_eq_numberChars 1 placed, numbered]

end InOrder

/-- In a run of indices without a gap each has its place as its position. -/
theorem lastPosition?_range' (start count index : Nat) :
    lastPosition? (List.range' start count) index =
      if start ≤ index ∧ index < start + count then some (index - start + 1) else none := by
  induction count with
  | zero =>
    rw [if_neg (by omega)]
    rfl
  | succ count ih =>
    have last : lastPosition? (List.range' start (count + 1)) index =
        if index = start + count then some (count + 1)
        else lastPosition? (List.range' start count) index := by
      rw [lastPosition?, List.range'_1_concat, List.zipIdx_append, List.reverse_append,
        List.length_range', Nat.add_comm 1 count]
      change List.lookup index ((start + count, count + 1) :: _) = _
      rw [List.lookup_cons]
      by_cases same : index = start + count
      · rw [if_pos same, beq_iff_eq.mpr same]
      · rw [if_neg same, beq_eq_false_iff_ne.mpr same]
        rfl
    rw [last, ih]
    by_cases same : index = start + count
    · rw [if_pos same, if_pos (by omega), same, Nat.add_sub_cancel_left]
    · rw [if_neg same]
      by_cases inside : start ≤ index ∧ index < start + count
      · rw [if_pos inside, if_pos (by omega)]
      · rw [if_neg inside, if_neg (by omega)]

end Placeholder

end SelectCompiler
