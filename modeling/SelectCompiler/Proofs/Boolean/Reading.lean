import SelectCompiler.Predicate.Connective

/-!
What a boolean SQL text says. It is a sequence of tests joined by AND and OR, of which AND binds
more tightly, and parentheses bind most tightly of all. A test is any text without a standalone
connective; what is quoted in it, and parentheses that are not all there is to it, are its own
affair.
-/

namespace SelectCompiler.Boolean

/-- A value for each way in which the tests can turn out. -/
abbrev Meaning := (String → Bool) → Bool

inductive Piece where
  | word (chars : List Char)
  | sign (char : Char)
  | quoted (chars : List Char)
  /-- A text with the parentheses around it, and what it means. -/
  | parens (chars : List Char) (meaning : Meaning)

namespace Piece

def chars : Piece → List Char
  | word chars => chars
  | sign char => [char]
  | quoted chars => chars
  | parens chars _ => chars

def isBlank : Piece → Bool
  | sign char => Text.isBlank char
  | _ => false

/-- The piece is the given connective, in any case. -/
def joins (connective : Connective) : Piece → Bool
  | word chars => chars.map Char.toUpper == connective.sql.toList
  | _ => false

end Piece

/-- The meaning of a text in parentheses, if nothing but blanks is around them. -/
def enclosed? (pieces : List Piece) : Option Meaning :=
  match pieces.filter (!·.isBlank) with
  | [.parens _ meaning] => some meaning
  | _ => none

/-- An operand is in parentheses, or it is a test, known by its text without the blanks around
it. -/
def operand (pieces : List Piece) : Meaning :=
  (enclosed? pieces).getD fun truth =>
    truth (String.ofList (Text.trimmed (pieces.flatMap Piece.chars)))

def conjunction (pieces : List Piece) : Meaning := fun truth =>
  ((pieces.splitOnP (·.joins .and)).map operand).all (· truth)

def expression (pieces : List Piece) : Meaning := fun truth =>
  ((pieces.splitOnP (·.joins .or)).map conjunction).any (· truth)

/-- Characters of names and numbers; beyond ASCII all that are not blank. -/
def isWordChar (c : Char) : Bool :=
  (c.isAlphanum || c == '_' || c == '$' || 127 < c.toNat) && !Text.isBlank c

def isMark (c : Char) : Bool := c == '\x27' || c == '"' || c == '\x60'

/-- A quotation whose beginning has not been reached yet. -/
structure Quotation where
  mark : Char
  isMark : isMark mark = true
  chars : List Char

/-- What has been read of a text. Texts are read from their end, so that words, quotations and
levels grow at their front; where all of these are complete that makes no difference. -/
structure Reader where
  quotation : Option Quotation
  /-- The levels of the parentheses that are still to be opened, the inmost first. -/
  inner : List (List Piece)
  base : List Piece

/-- One more character at the front of a level, in the word that is there if there is one. -/
def lengthen (c : Char) : List Piece → List Piece
  | .word chars :: rest => .word (c :: chars) :: rest
  | level => .word [c] :: level

namespace Reader

def start : Reader := ⟨none, [], []⟩

/-- Change the inmost level. -/
def onLevel (change : List Piece → List Piece) (now : Reader) : Reader :=
  match now.inner with
  | [] => { now with base := change now.base }
  | level :: outer => { now with inner := change level :: outer }

/-- The character before a quotation belongs to it, and may be the mark with which it begins. -/
def quote (quotation : Quotation) (c : Char) (now : Reader) : Reader :=
  let chars := c :: quotation.chars
  if c = quotation.mark then { now with quotation := none }.onLevel (.quoted chars :: ·)
  else { now with quotation := some { quotation with chars } }

/-- The inmost level is complete; there is none to complete at the base. -/
def enclose? (now : Reader) : Option Reader :=
  match now.inner with
  | [] => none
  | level :: outer =>
    let chars := '(' :: (level.flatMap Piece.chars ++ [')'])
    some ({ now with inner := outer }.onLevel (.parens chars (expression level) :: ·))

/-- Read the character before all that has been read. -/
def take (now : Reader) (c : Char) : Option Reader :=
  match now.quotation with
  | some quotation => some (now.quote quotation c)
  | none =>
    if mark : isMark c = true then some { now with quotation := some ⟨c, mark, [c]⟩ }
    else if c = ')' then some { now with inner := [] :: now.inner }
    else if c = '(' then now.enclose?
    else if isWordChar c then some (now.onLevel (lengthen c))
    else some (now.onLevel (.sign c :: ·))

def read (now : Reader) : List Char → Option Reader
  | [] => some now
  | c :: rest => (now.read rest).bind (·.take c)

/-- The pieces of a text, if all quotations and parentheses in it are complete. -/
def finish : Reader → Option (List Piece)
  | ⟨none, [], pieces⟩ => some pieces
  | _ => none

end Reader

def pieces? (chars : List Char) : Option (List Piece) :=
  (Reader.start.read chars).bind Reader.finish

/-- The text can be read, and it comes out true if exactly the given tests do. -/
def holds (truth : String → Bool) (text : String) : Bool :=
  (pieces? text.toList).any (expression · truth)

section Frames

variable {now next : Reader} {c : Char} {level ground pieces : List Piece} {text rest : List Char}

/-- No word is at the front that could become longer. -/
def Parted (level : List Piece) : Prop :=
  ∀ chars rest, level ≠ .word chars :: rest

theorem lengthen_append (parted : Parted ground) :
    lengthen c (level ++ ground) = lengthen c level ++ ground := by
  cases level with
  | nil =>
    cases ground with
    | nil => rfl
    | cons piece rest =>
      cases piece with
      | word chars => exact absurd rfl (parted chars rest)
      | sign | quoted | parens => rfl
  | cons piece level => cases piece <;> rfl

namespace Reader

/-- The same in front of pieces that were there before. -/
def upon (now : Reader) (ground : List Piece) : Reader :=
  { now with base := now.base ++ ground }

/-- The same in parentheses that are still to be opened. -/
def inside (now : Reader) : Reader :=
  ⟨now.quotation, now.inner ++ [now.base], []⟩

theorem onLevel_upon (now : Reader) {change : List Piece → List Piece}
    (front : ∀ level, change (level ++ ground) = change level ++ ground) :
    (now.upon ground).onLevel change = (now.onLevel change).upon ground := by
  obtain ⟨quotation, inner, base⟩ := now
  cases inner with
  | nil => exact congrArg _ (front base)
  | cons level outer => rfl

theorem quote_upon (quotation : Quotation) :
    (now.upon ground).quote quotation c = (now.quote quotation c).upon ground := by
  unfold quote
  split
  · exact onLevel_upon { now with quotation := none } fun _ => rfl
  · rfl

theorem enclose?_upon : (now.upon ground).enclose? = now.enclose?.map (·.upon ground) := by
  obtain ⟨quotation, inner, base⟩ := now
  cases inner with
  | nil => rfl
  | cons level outer =>
    exact congrArg some (onLevel_upon ⟨quotation, outer, base⟩ fun _ => rfl)

theorem take_upon (parted : Parted ground) :
    (now.upon ground).take c = (now.take c).map (·.upon ground) := by
  have same : (now.upon ground).quotation = now.quotation := rfl
  unfold take
  rw [same]
  cases now.quotation with
  | some quotation => exact congrArg some (quote_upon quotation)
  | none =>
    simp only
    split
    · rfl
    split
    · rfl
    split
    · exact enclose?_upon
    split
    · exact congrArg some (onLevel_upon now fun _ => lengthen_append parted)
    · exact congrArg some (onLevel_upon now fun _ => rfl)

theorem onLevel_inside (now : Reader) {change : List Piece → List Piece} :
    now.inside.onLevel change = (now.onLevel change).inside := by
  obtain ⟨quotation, inner, base⟩ := now
  cases inner <;> rfl

theorem quote_inside (quotation : Quotation) :
    now.inside.quote quotation c = (now.quote quotation c).inside := by
  unfold quote
  split
  · exact onLevel_inside { now with quotation := none }
  · rfl

theorem enclose?_inside (enclosed : now.enclose? = some next) :
    now.inside.enclose? = some next.inside := by
  obtain ⟨quotation, inner, base⟩ := now
  cases inner with
  | nil => contradiction
  | cons level outer =>
    rw [← Option.some.inj enclosed]
    exact congrArg some (onLevel_inside ⟨quotation, outer, base⟩)

theorem take_inside (taken : now.take c = some next) : now.inside.take c = some next.inside := by
  have same : now.inside.quotation = now.quotation := rfl
  unfold take at taken ⊢
  rw [same]
  cases unfinished : now.quotation with
  | some quotation =>
    rw [unfinished] at taken
    rw [← Option.some.inj taken]
    exact congrArg some (quote_inside quotation)
  | none =>
    rw [unfinished] at taken
    simp only at taken ⊢
    by_cases mark : isMark c = true
    · rw [dif_pos mark] at taken ⊢
      rw [← Option.some.inj taken]
      rfl
    rw [dif_neg mark] at taken ⊢
    by_cases closing : c = ')'
    · rw [if_pos closing] at taken ⊢
      rw [← Option.some.inj taken]
      rfl
    rw [if_neg closing] at taken ⊢
    by_cases opening : c = '('
    · rw [if_pos opening] at taken ⊢
      exact enclose?_inside taken
    rw [if_neg opening] at taken ⊢
    by_cases name : isWordChar c = true
    · rw [if_pos name] at taken ⊢
      rw [← Option.some.inj taken, onLevel_inside]
    · rw [if_neg name] at taken ⊢
      rw [← Option.some.inj taken, onLevel_inside]

theorem finish_upon : (now.upon ground).finish = now.finish.map (· ++ ground) := by
  obtain ⟨quotation, inner, base⟩ := now
  cases quotation <;> cases inner <;> rfl

theorem finish_eq_some_iff : now.finish = some pieces ↔ now = ⟨none, [], pieces⟩ := by
  obtain ⟨quotation, inner, base⟩ := now
  cases quotation <;> cases inner <;> simp [finish]

end Reader

end Frames

section Characters

variable {c : Char} {rest chars : List Char}

/-- A character that is a piece of its own. -/
structure IsSign (c : Char) : Prop where
  noMark : isMark c = false
  noClosing : c ≠ ')'
  noOpening : c ≠ '('
  noName : isWordChar c = false

theorem isMark_iff : isMark c = true ↔ c = '\x27' ∨ c = '"' ∨ c = '\x60' := by
  simp only [isMark, Bool.or_eq_true, beq_iff_eq, or_assoc]

theorem isMark_eq_false_of_isWordChar (name : isWordChar c = true) : isMark c = false := by
  rw [Bool.eq_false_iff]
  intro mark
  obtain rfl | rfl | rfl := isMark_iff.mp mark <;> revert name <;> decide

theorem isSign_of_isBlank (blank : Text.isBlank c = true) : IsSign c where
  noMark := by
    rw [Bool.eq_false_iff]
    intro mark
    obtain rfl | rfl | rfl := isMark_iff.mp mark <;> revert blank <;> decide
  noClosing := by rintro rfl; revert blank; decide
  noOpening := by rintro rfl; revert blank; decide
  noName := by rw [isWordChar, blank]; exact Bool.and_false _

end Characters

end SelectCompiler.Boolean
