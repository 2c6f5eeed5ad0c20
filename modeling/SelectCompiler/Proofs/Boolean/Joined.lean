import SelectCompiler.Proofs.Boolean.Laws
import SelectCompiler.Proofs.Boolean.Precedence

/-!
Boolean texts put together from others. Blanks around a text do not matter, parentheses make one
operand of it, and texts joined by AND hold together if none of them has an OR outside of
parentheses.
-/

namespace SelectCompiler.Boolean

variable {read? : List Char → Option (List Piece)} {allowed : Piece → Prop}
  {first second text : String} {chars rest : List Char} {pieces later : List Piece}
  {truth : String → Bool}

/-- The text can be read in the given way, and all pieces of it outside of parentheses are
allowed. -/
def ReadsBy (read? : List Char → Option (List Piece)) (allowed : Piece → Prop) (text : String) :
    Prop :=
  ∃ pieces, read? text.toList = some pieces ∧ ∀ piece ∈ pieces, allowed piece

instance [DecidablePred allowed] : Decidable (ReadsBy read? allowed text) :=
  decidable_of_iff ((read? text.toList).any fun pieces => pieces.all (allowed ·)) (by
    simp [ReadsBy, Option.any_eq_true])

/-- Read in the given way, the text comes out true if exactly the given tests do. -/
def saysBy (read? : List Char → Option (List Piece)) (truth : String → Bool) (text : String) :
    Bool :=
  (read? text.toList).any (expression · truth)

theorem parted_sign (c : Char) (pieces : List Piece) : Parted (.sign c :: pieces) :=
  fun _ _ => nofun

theorem saysBy_eq (read : read? text.toList = some pieces) :
    saysBy read? truth text = expression pieces truth := by
  rw [saysBy, read, Option.any_some]

theorem ReadsBy.mono {other : Piece → Prop} (reads : ReadsBy read? allowed text)
    (allows : ∀ piece, allowed piece → other piece) : ReadsBy read? other text := by
  obtain ⟨pieces, read, each⟩ := reads
  exact ⟨pieces, read, fun piece member => allows piece (each piece member)⟩

namespace Lawful

theorem signs (laws : Lawful read?) (signs : ∀ c ∈ chars, IsSign c) :
    read? (chars ++ rest) = (read? rest).map (chars.map Piece.sign ++ ·) := by
  induction chars with
  | nil => exact Option.map_id'.symm
  | cons c chars ih =>
    rw [List.cons_append, laws.sign (signs c List.mem_cons_self),
      ih fun other member => signs other (List.mem_cons_of_mem c member), Option.map_map]
    rfl

/-- A text has the pieces of what is between the blanks around it, and blanks around these. -/
theorem trimmed (laws : Lawful read?) (chars : List Char) :
    ∃ lead trail : List Char, (∀ c ∈ lead, Text.isBlank c = true) ∧
      (∀ c ∈ trail, Text.isBlank c = true) ∧
      read? chars = (read? (Text.trimmed chars)).map fun pieces =>
        lead.map .sign ++ (pieces ++ trail.map .sign) := by
  obtain ⟨lead, trail, split, leading, trailing⟩ := Text.exists_trimmed chars
  have ending : read? trail = some (trail.map .sign) := by
    have read : read? (trail ++ []) = _ :=
      laws.signs fun c member => isSign_of_isBlank (trailing c member)
    simpa [laws.nil] using read
  have parted : Parted (trail.map Piece.sign) := by
    cases trail with
    | nil => exact fun _ _ same => List.cons_ne_nil _ _ same.symm
    | cons c rest => exact parted_sign c _
  refine ⟨lead, trail, leading, trailing, ?_⟩
  conv => lhs; rw [split]
  rw [laws.signs fun c member => isSign_of_isBlank (leading c member),
    laws.append parted ending, Option.map_map]
  rfl

theorem trim (laws : Lawful read?) (reads : ReadsBy read? allowed text) :
    ReadsBy read? allowed (Text.trim text) := by
  obtain ⟨pieces, read, each⟩ := reads
  obtain ⟨lead, trail, _, _, split⟩ := laws.trimmed text.toList
  obtain ⟨kept, inner, rfl⟩ := Option.map_eq_some_iff.mp (split.symm.trans read)
  rw [ReadsBy, Text.toList_trim]
  exact ⟨kept, inner, fun piece member => each piece (by simp [member])⟩

theorem says_trim (laws : Lawful read?) (truth : String → Bool) (text : String) :
    saysBy read? truth (Text.trim text) = saysBy read? truth text := by
  obtain ⟨lead, trail, leading, trailing, split⟩ := laws.trimmed text.toList
  rw [saysBy, saysBy, Text.toList_trim, split]
  cases read? (Text.trimmed text.toList) with
  | none => rfl
  | some pieces => exact (congrFun (expression_blanks leading trailing pieces) truth).symm

theorem read_spaced (laws : Lawful read?) (before : read? chars = some pieces)
    (after : read? rest = some later) :
    read? (chars ++ ' ' :: rest) = some (pieces ++ .sign ' ' :: later) := by
  have blank : read? (' ' :: rest) = some (.sign ' ' :: later) := by
    rw [laws.sign (isSign_of_isBlank (by decide)), after, Option.map_some]
  rw [laws.append (parted_sign ' ' later) blank, before, Option.map_some]

theorem spaced (laws : Lawful read?) (blank : allowed (.sign ' '))
    (before : ReadsBy read? allowed first) (after : ReadsBy read? allowed second) :
    ReadsBy read? allowed (first ++ " " ++ second) := by
  obtain ⟨pieces, read, each⟩ := before
  obtain ⟨later, next, every⟩ := after
  refine ⟨pieces ++ .sign ' ' :: later, ?_, ?_⟩
  · rw [String.append_assoc, String.toList_append, String.toList_append]
    exact laws.read_spaced read next
  · intro piece member
    obtain old | rfl | new := by simpa using member
    · exact each piece old
    · exact blank
    · exact every piece new

theorem read_inParens (laws : Lawful read?) (read : read? text.toList = some pieces) :
    read? ("(" ++ text ++ ")").toList =
      some [.parens ('(' :: (pieces.flatMap Piece.chars ++ [')'])) (expression pieces)] := by
  rw [String.append_assoc, String.toList_append, String.toList_append]
  exact laws.parens read

/-- In parentheses any text is one piece. -/
theorem inParens (laws : Lawful read?) (whole : ∀ chars meaning, allowed (.parens chars meaning))
    (balanced : ReadsBy read? (fun _ => True) text) :
    ReadsBy read? allowed ("(" ++ text ++ ")") := by
  obtain ⟨pieces, read, _⟩ := balanced
  exact ⟨_, laws.read_inParens read, List.forall_mem_singleton.mpr (whole _ _)⟩

theorem says_inParens (laws : Lawful read?) (balanced : ReadsBy read? (fun _ => True) text)
    (truth : String → Bool) :
    saysBy read? truth ("(" ++ text ++ ")") = saysBy read? truth text := by
  obtain ⟨pieces, read, _⟩ := balanced
  rw [saysBy_eq (laws.read_inParens read), saysBy_eq read, expression_parens]

theorem read_joined (laws : Lawful read?) (connective : Connective)
    (before : read? first.toList = some pieces) (after : read? second.toList = some later) :
    read? (first ++ (" " ++ connective.sql ++ " ") ++ second).toList =
      some (pieces ++ (seam connective ++ later)) := by
  have word : read? connective.sql.toList = some [.word connective.sql.toList] := by
    cases connective <;> exact laws.word (List.all_eq_true.mp (by decide)) (by decide)
  have joined := laws.read_spaced before (laws.read_spaced word after)
  simp only [String.append_assoc, String.toList_append]
  exact joined

theorem joined (laws : Lawful read?) {connective : Connective}
    (between : ∀ piece ∈ seam connective, allowed piece)
    (before : ReadsBy read? allowed first) (after : ReadsBy read? allowed second) :
    ReadsBy read? allowed (first ++ (" " ++ connective.sql ++ " ") ++ second) := by
  obtain ⟨pieces, read, each⟩ := before
  obtain ⟨later, next, every⟩ := after
  refine ⟨_, laws.read_joined connective read next, ?_⟩
  intro piece member
  rw [List.mem_append, List.mem_append] at member
  obtain old | mid | new := member
  · exact each piece old
  · exact between piece mid
  · exact every piece new

end Lawful

/-- The text can be read, and all pieces of it outside of parentheses are allowed. -/
def Reads (allowed : Piece → Prop) (text : String) : Prop :=
  ∃ pieces, pieces? text.toList = some pieces ∧ ∀ piece ∈ pieces, allowed piece

instance {allowed : Piece → Prop} [DecidablePred allowed] {text : String} :
    Decidable (Reads allowed text) :=
  decidable_of_iff ((pieces? text.toList).any fun pieces => pieces.all (allowed ·)) (by
    simp [Reads, Option.any_eq_true])

/-- Quotations and parentheses are complete. -/
abbrev Balanced (text : String) : Prop := Reads (fun _ => True) text

/-- Besides, there is no OR outside of parentheses. -/
abbrev Conjunctive (text : String) : Prop := Reads (fun piece => piece.joins .or = false) text

section Quoting

theorem Reads.balanced (reads : Reads allowed text) : Balanced text :=
  ReadsBy.mono reads fun _ _ => trivial

theorem holds_eq (read : pieces? text.toList = some pieces) :
    holds truth text = expression pieces truth :=
  saysBy_eq read

theorem Reads.trim (reads : Reads allowed text) : Reads allowed (Text.trim text) :=
  lawful_pieces?.trim reads

theorem holds_trim (truth : String → Bool) (text : String) :
    holds truth (Text.trim text) = holds truth text :=
  lawful_pieces?.says_trim truth text

/-- In parentheses any text is one piece. -/
theorem Reads.parens (whole : ∀ chars meaning, allowed (.parens chars meaning))
    (balanced : Balanced text) : Reads allowed ("(" ++ text ++ ")") :=
  lawful_pieces?.inParens whole balanced

theorem holds_parens (balanced : Balanced text) (truth : String → Bool) :
    holds truth ("(" ++ text ++ ")") = holds truth text :=
  lawful_pieces?.says_inParens balanced truth

theorem and_eq : " AND " = " " ++ Connective.and.sql ++ " " := by decide

theorem Reads.joined {connective : Connective} (between : ∀ piece ∈ seam connective, allowed piece)
    (before : Reads allowed first) (after : Reads allowed second) :
    Reads allowed (first ++ (" " ++ connective.sql ++ " ") ++ second) :=
  lawful_pieces?.joined between before after

theorem Conjunctive.and (before : Conjunctive first) (after : Conjunctive second) :
    Conjunctive (first ++ " AND " ++ second) := by
  rw [and_eq]
  exact before.joined (by simp [seam, Piece.joins]; decide) after

theorem holds_and (before : Conjunctive first) (after : Conjunctive second)
    (truth : String → Bool) :
    holds truth (first ++ " AND " ++ second) = (holds truth first && holds truth second) := by
  obtain ⟨joined, whole, single⟩ := before.and after
  obtain ⟨pieces, read, each⟩ := before
  obtain ⟨later, next, every⟩ := after
  have split := lawful_pieces?.read_joined .and read next
  rw [← and_eq] at split
  obtain rfl := Option.some.inj (whole.symm.trans split)
  rw [holds_eq whole, holds_eq read, holds_eq next, expression_eq_conjunction single,
    expression_eq_conjunction each, expression_eq_conjunction every, conjunction_and]

/-- Texts without an OR outside of parentheses, joined by AND, hold together. -/
theorem holds_intercalate {texts : List String} (filled : texts ≠ [])
    (each : ∀ text ∈ texts, Conjunctive text) :
    Conjunctive (" AND ".intercalate texts) ∧
      ∀ truth, holds truth (" AND ".intercalate texts) = texts.all (holds truth) := by
  induction texts with
  | nil => contradiction
  | cons first rest ih =>
    have head := each first List.mem_cons_self
    cases rest with
    | nil =>
      rw [String.intercalate_singleton]
      exact ⟨head, fun truth => (Bool.and_true _).symm⟩
    | cons next rest =>
      obtain ⟨tail, value⟩ := ih (List.cons_ne_nil _ _) fun text member =>
        each text (List.mem_cons_of_mem first member)
      rw [String.intercalate_cons_cons]
      refine ⟨head.and tail, fun truth => ?_⟩
      rw [holds_and head tail, value]
      rfl

example : holds (· != "b IN (1, 2)") "a = ') OR (' AND (b IN (1, 2) or NOW() > c)" = true := by
  decide +kernel

end Quoting

end SelectCompiler.Boolean
