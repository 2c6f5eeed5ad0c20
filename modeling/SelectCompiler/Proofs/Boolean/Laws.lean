import Mathlib.Data.List.Chain
import SelectCompiler.Proofs.Boolean.Reading

/-!
Ways to read a boolean text, and what all of them have in common. Quotation marks can hide what is
between them, or they can be signs like any others. Either way texts are read piece by piece, a
text in parentheses is one piece, no character is lost, and words are as long as they can be.
-/

namespace SelectCompiler.Boolean

variable {way : Reader → Char → Option Reader} {now next : Reader} {c : Char}
  {level ground pieces : List Piece} {text rest : List Char}

namespace Reader

/-- Quotation marks are signs like any others, so that no quotation ever begins. -/
def takePlain (now : Reader) (c : Char) : Option Reader :=
  if now.quotation.isNone = true ∧ isMark c = true then some (now.onLevel (.sign c :: ·))
  else now.take c

/-- Read a text from its end and take its characters in the given way. -/
def readBy (way : Reader → Char → Option Reader) (now : Reader) : List Char → Option Reader
  | [] => some now
  | c :: rest => (readBy way now rest).bind (way · c)

/-- All that taking one more character can do. -/
inductive Takes (now : Reader) (c : Char) : Reader → Prop where
  | quoted (quotation : Quotation) (inQuotation : now.quotation = some quotation)
      (begins : c = quotation.mark) :
      Takes now c ({ now with quotation := none }.onLevel (.quoted (c :: quotation.chars) :: ·))
  | quoting (quotation : Quotation) (inQuotation : now.quotation = some quotation)
      (goesOn : c ≠ quotation.mark) :
      Takes now c
        { now with quotation := some { quotation with chars := c :: quotation.chars } }
  | mark (outside : now.quotation = none) (mark : isMark c = true) :
      Takes now c { now with quotation := some ⟨c, mark, [c]⟩ }
  | closing (outside : now.quotation = none) (closing : c = ')') :
      Takes now c { now with inner := [] :: now.inner }
  | opening {next : Reader} (outside : now.quotation = none) (opening : c = '(')
      (enclosed : now.enclose? = some next) : Takes now c next
  | name (outside : now.quotation = none) (name : isWordChar c = true) :
      Takes now c (now.onLevel (lengthen c))
  | sign (outside : now.quotation = none) (noClosing : c ≠ ')') (noOpening : c ≠ '(')
      (noName : isWordChar c = false) :
      Takes now c (now.onLevel (.sign c :: ·))

theorem takes_of_take (taken : now.take c = some next) : now.Takes c next := by
  unfold take at taken
  split at taken
  · rename_i quotation inQuotation
    rw [← Option.some.inj taken, quote]
    split
    · exact .quoted quotation inQuotation ‹_›
    · exact .quoting quotation inQuotation ‹_›
  · rename_i outside
    split at taken
    · rw [← Option.some.inj taken]
      exact .mark outside ‹_›
    split at taken
    · rw [← Option.some.inj taken]
      exact .closing outside ‹_›
    rename_i noClosing
    split at taken
    · exact .opening outside ‹_› taken
    rename_i noOpening
    split at taken
    · rw [← Option.some.inj taken]
      exact .name outside ‹_›
    · rename_i noName
      rw [← Option.some.inj taken]
      exact .sign outside noClosing noOpening (Bool.eq_false_iff.mpr noName)

/-- A way to take characters that differs from the first one at most for quotation marks. It does
the same on top of other pieces and inside of parentheses. -/
structure Sound (way : Reader → Char → Option Reader) : Prop where
  plain : ∀ {now : Reader} {c : Char}, isMark c = false → way now c = now.take c
  takes : ∀ {now next : Reader} {c : Char}, way now c = some next → now.Takes c next
  upon : ∀ {now : Reader} {c : Char} {ground : List Piece}, Parted ground →
    way (now.upon ground) c = (way now c).map (·.upon ground)
  inside : ∀ {now next : Reader} {c : Char}, way now c = some next →
    way now.inside c = some next.inside

theorem sound_take : Sound take where
  plain _ := rfl
  takes := takes_of_take
  upon := take_upon
  inside := take_inside

theorem sound_takePlain : Sound takePlain where
  plain noMark := by
    rw [takePlain, if_neg]
    rintro ⟨_, mark⟩
    rw [noMark] at mark
    contradiction
  takes {now next c} taken := by
    unfold takePlain at taken
    split at taken
    · rename_i outside
      rw [← Option.some.inj taken]
      have noName : isWordChar c = false := Bool.eq_false_iff.mpr fun name =>
        absurd outside.2 (Bool.eq_false_iff.mp (isMark_eq_false_of_isWordChar name))
      refine .sign (Option.isNone_iff_eq_none.mp outside.1) ?_ ?_ noName
      · rintro rfl
        exact absurd outside.2 (by decide)
      · rintro rfl
        exact absurd outside.2 (by decide)
    · exact takes_of_take taken
  upon {now c ground} parted := by
    have same : (now.upon ground).quotation = now.quotation := rfl
    unfold takePlain
    rw [same]
    split
    · exact congrArg some (onLevel_upon now fun _ => rfl)
    · exact take_upon parted
  inside {now next c} taken := by
    have same : now.inside.quotation = now.quotation := rfl
    unfold takePlain at taken ⊢
    rw [same]
    by_cases mark : now.quotation.isNone = true ∧ isMark c = true
    · rw [if_pos mark] at taken ⊢
      rw [← Option.some.inj taken, onLevel_inside]
    · rw [if_neg mark] at taken ⊢
      exact take_inside taken

theorem readBy_append :
    now.readBy way (text ++ rest) = (now.readBy way rest).bind (·.readBy way text) := by
  induction text with
  | nil => exact (Option.bind_fun_some _).symm
  | cons c text ih =>
    rw [List.cons_append, readBy, ih, Option.bind_assoc]
    rfl

/-- What is read is what comes from the state before by taking characters. -/
theorem readBy_preserves (invariant : Reader → List Char → Prop)
    (preserved : ∀ {now next : Reader} {c : Char} {chars : List Char}, invariant now chars →
      way now c = some next → invariant next (c :: chars))
    (holds : invariant now []) (done : now.readBy way text = some next) :
    invariant next text := by
  induction text generalizing next with
  | nil =>
    rw [← Option.some.inj done]
    exact holds
  | cons c rest ih =>
    obtain ⟨before, read, taken⟩ := Option.bind_eq_some_iff.mp done
    exact preserved (ih read) taken

namespace Sound

theorem readBy_upon (sound : Sound way) (parted : Parted ground) :
    (now.upon ground).readBy way text = (now.readBy way text).map (·.upon ground) := by
  induction text with
  | nil => rfl
  | cons c rest ih =>
    rw [readBy, ih, readBy]
    cases now.readBy way rest with
    | none => rfl
    | some next => exact sound.upon parted

theorem readBy_inside (sound : Sound way) (done : now.readBy way text = some next) :
    now.inside.readBy way text = some next.inside := by
  induction text generalizing next with
  | nil =>
    rw [← Option.some.inj done]
    rfl
  | cons c rest ih =>
    obtain ⟨later, before, taken⟩ := Option.bind_eq_some_iff.mp done
    rw [readBy, ih before]
    exact sound.inside taken

end Sound

end Reader

/-- The pieces of a text that is read in the given way. -/
def piecesBy (way : Reader → Char → Option Reader) (chars : List Char) : Option (List Piece) :=
  (Reader.start.readBy way chars).bind Reader.finish

theorem piecesBy_eq_some_iff :
    piecesBy way text = some pieces ↔ Reader.start.readBy way text = some ⟨none, [], pieces⟩ := by
  simp [piecesBy, Option.bind_eq_some_iff, Reader.finish_eq_some_iff]

section Shapes

/-- Words have characters of words, and all other pieces end in a character of another kind at both
ends. -/
def Piece.Shaped : Piece → Prop
  | word chars => chars ≠ [] ∧ ∀ c ∈ chars, isWordChar c = true
  | sign char => isWordChar char = false
  | quoted chars => ∃ mark inner, isMark mark = true ∧ chars = mark :: (inner ++ [mark])
  | parens chars _ => ∃ inner, chars = '(' :: (inner ++ [')'])

def Piece.isWord : Piece → Bool
  | word _ => true
  | _ => false

/-- The pieces have their shapes, and no word stands next to another. -/
structure Formed (pieces : List Piece) : Prop where
  shaped : ∀ piece ∈ pieces, piece.Shaped
  apart : pieces.IsChain fun piece next => (piece.isWord && next.isWord) = false

theorem Formed.nil : Formed [] := ⟨nofun, .nil⟩

theorem Formed.cons {piece : Piece} (formed : Formed level) (shaped : piece.Shaped)
    (other : piece.isWord = false) : Formed (piece :: level) where
  shaped := List.forall_mem_cons.mpr ⟨shaped, formed.shaped⟩
  apart := by
    rw [List.isChain_cons]
    refine ⟨fun next _ => ?_, formed.apart⟩
    rw [other, Bool.false_and]

theorem Formed.tail {piece : Piece} (formed : Formed (piece :: level)) : Formed level where
  shaped := (List.forall_mem_cons.mp formed.shaped).2
  apart := formed.apart.tail

theorem Formed.lengthen (formed : Formed level) (name : isWordChar c = true) :
    Formed (lengthen c level) := by
  have fresh : (Piece.word [c]).Shaped :=
    ⟨List.cons_ne_nil _ _, List.forall_mem_singleton.mpr name⟩
  match level with
  | [] => exact ⟨List.forall_mem_singleton.mpr fresh, .singleton _⟩
  | .word chars :: rest =>
    have shaped : (Piece.word (c :: chars)).Shaped :=
      ⟨List.cons_ne_nil _ _,
        List.forall_mem_cons.mpr ⟨name, (formed.shaped _ List.mem_cons_self).2⟩⟩
    have apart := formed.apart
    rw [List.isChain_cons] at apart
    exact ⟨List.forall_mem_cons.mpr ⟨shaped, formed.tail.shaped⟩, List.isChain_cons.mpr apart⟩
  | .sign char :: rest =>
    exact ⟨List.forall_mem_cons.mpr ⟨fresh, formed.shaped⟩, .cons_cons rfl formed.apart⟩
  | .quoted chars :: rest =>
    exact ⟨List.forall_mem_cons.mpr ⟨fresh, formed.shaped⟩, .cons_cons rfl formed.apart⟩
  | .parens chars meaning :: rest =>
    exact ⟨List.forall_mem_cons.mpr ⟨fresh, formed.shaped⟩, .cons_cons rfl formed.apart⟩

theorem flatMap_chars_lengthen (c : Char) (level : List Piece) :
    (lengthen c level).flatMap Piece.chars = c :: level.flatMap Piece.chars := by
  match level with
  | [] => rfl
  | .word _ :: _ => rfl
  | .sign _ :: _ => rfl
  | .quoted _ :: _ => rfl
  | .parens _ _ :: _ => rfl

namespace Reader

/-- The characters that have been read. -/
def chars (now : Reader) : List Char :=
  now.quotation.elim [] Quotation.chars
    ++ now.inner.foldr (fun level rest => level.flatMap Piece.chars ++ ')' :: rest)
      (now.base.flatMap Piece.chars)

/-- All levels are formed, and a quotation ends in its mark. -/
structure Formed (now : Reader) : Prop where
  quotation : ∀ quotation, now.quotation = some quotation →
    ∃ inner, quotation.chars = inner ++ [quotation.mark]
  inner : ∀ level ∈ now.inner, Boolean.Formed level
  base : Boolean.Formed now.base

theorem chars_onLevel {change : List Piece → List Piece} {added : List Char}
    (outside : now.quotation = none)
    (front : ∀ level : List Piece,
      (change level).flatMap Piece.chars = added ++ level.flatMap Piece.chars) :
    (now.onLevel change).chars = added ++ now.chars := by
  obtain ⟨quotation, inner, base⟩ := now
  obtain rfl : quotation = none := outside
  cases inner with
  | nil => exact front base
  | cons level outer => simp [onLevel, chars, front]

theorem Formed.start : start.Formed where
  quotation _ same := nomatch same
  inner _ member := nomatch member
  base := .nil

theorem Formed.onLevel {change : List Piece → List Piece} (formed : now.Formed)
    (kept : ∀ level, Boolean.Formed level → Boolean.Formed (change level)) :
    (now.onLevel change).Formed := by
  obtain ⟨quotation, inner, base⟩ := now
  cases inner with
  | nil => exact ⟨formed.quotation, nofun, kept _ formed.base⟩
  | cons level outer =>
    obtain ⟨inmost, others⟩ := List.forall_mem_cons.mp formed.inner
    exact ⟨formed.quotation, List.forall_mem_cons.mpr ⟨kept _ inmost, others⟩, formed.base⟩

theorem Takes.chars_eq (takes : now.Takes c next) : next.chars = c :: now.chars := by
  cases takes with
  | quoted quotation inQuotation begins =>
    rw [chars_onLevel rfl (fun _ => List.flatMap_cons), chars, chars, inQuotation]
    rfl
  | quoting quotation inQuotation goesOn =>
    rw [chars, chars, inQuotation]
    rfl
  | mark outside mark =>
    rw [chars, chars, outside]
    rfl
  | closing outside closing =>
    rw [chars, chars, outside, closing]
    rfl
  | opening outside opening enclosed =>
    obtain ⟨quotation, inner, base⟩ := now
    obtain rfl : quotation = none := outside
    cases inner with
    | nil => contradiction
    | cons level outer =>
      rw [← Option.some.inj enclosed, chars_onLevel rfl (fun _ => List.flatMap_cons), opening]
      simp [chars, Piece.chars]
  | name outside name =>
    have front (level : List Piece) :
        (lengthen c level).flatMap Piece.chars = [c] ++ level.flatMap Piece.chars :=
      flatMap_chars_lengthen c level
    exact chars_onLevel outside front
  | sign outside noClosing noOpening noName =>
    exact chars_onLevel outside (fun _ => List.flatMap_cons)

theorem Takes.formed (takes : now.Takes c next) (formed : now.Formed) : next.Formed := by
  cases takes with
  | quoted quotation inQuotation begins =>
    obtain ⟨inner, ends⟩ := formed.quotation quotation inQuotation
    have shaped : (Piece.quoted (c :: quotation.chars)).Shaped :=
      ⟨quotation.mark, inner, quotation.isMark, by rw [begins, ends]⟩
    refine Formed.onLevel ⟨nofun, formed.inner, formed.base⟩ fun level kept => ?_
    exact kept.cons shaped rfl
  | quoting quotation inQuotation goesOn =>
    obtain ⟨inner, ends⟩ := formed.quotation quotation inQuotation
    refine ⟨fun other same => ?_, formed.inner, formed.base⟩
    rw [← Option.some.inj same]
    exact ⟨c :: inner, by rw [ends, List.cons_append]⟩
  | mark outside mark =>
    refine ⟨fun other same => ?_, formed.inner, formed.base⟩
    rw [← Option.some.inj same]
    exact ⟨[], rfl⟩
  | closing outside closing =>
    exact ⟨formed.quotation, List.forall_mem_cons.mpr ⟨.nil, formed.inner⟩, formed.base⟩
  | opening outside opening enclosed =>
    obtain ⟨quotation, inner, base⟩ := now
    cases inner with
    | nil => contradiction
    | cons level outer =>
      rw [← Option.some.inj enclosed]
      refine Formed.onLevel ⟨formed.quotation, (List.forall_mem_cons.mp formed.inner).2,
        formed.base⟩ fun other kept => ?_
      exact kept.cons ⟨_, rfl⟩ rfl
  | name outside name => exact formed.onLevel fun level kept => kept.lengthen name
  | sign outside noClosing noOpening noName =>
    exact formed.onLevel fun level kept => kept.cons noName rfl

end Reader

end Shapes

/-- What holds of any way to read boolean texts. -/
structure Lawful (read? : List Char → Option (List Piece)) : Prop where
  nil : read? [] = some []
  /-- A text in front of another adds its own pieces, unless it could become part of a word. -/
  append : ∀ {text rest : List Char} {ground : List Piece}, Parted ground →
    read? rest = some ground → read? (text ++ rest) = (read? text).map (· ++ ground)
  parens : ∀ {text : List Char} {pieces : List Piece}, read? text = some pieces →
    read? ('(' :: (text ++ [')'])) =
      some [.parens ('(' :: (pieces.flatMap Piece.chars ++ [')'])) (expression pieces)]
  sign : ∀ {c : Char} {rest : List Char}, IsSign c →
    read? (c :: rest) = (read? rest).map (.sign c :: ·)
  word : ∀ {chars : List Char}, (∀ c ∈ chars, isWordChar c = true) → chars ≠ [] →
    read? chars = some [.word chars]
  chars : ∀ {text : List Char} {pieces : List Piece}, read? text = some pieces →
    pieces.flatMap Piece.chars = text
  formed : ∀ {text : List Char} {pieces : List Piece}, read? text = some pieces → Formed pieces

namespace Reader.Sound

theorem piecesBy_append (sound : Sound way) (parted : Parted ground)
    (read : piecesBy way rest = some ground) :
    piecesBy way (text ++ rest) = (piecesBy way text).map (· ++ ground) := by
  have before : (⟨none, [], ground⟩ : Reader) = Reader.start.upon ground := rfl
  rw [piecesBy, readBy_append, piecesBy_eq_some_iff.mp read, Option.bind_some, before,
    sound.readBy_upon parted, piecesBy]
  cases Reader.start.readBy way text with
  | none => rfl
  | some done => exact finish_upon

theorem piecesBy_parens (sound : Sound way) (read : piecesBy way text = some pieces) :
    piecesBy way ('(' :: (text ++ [')'])) =
      some [.parens ('(' :: (pieces.flatMap Piece.chars ++ [')'])) (expression pieces)] := by
  have ending : way Reader.start ')' = some Reader.start.inside := sound.plain (by decide)
  have inner : Reader.start.readBy way [')'] = some Reader.start.inside := ending
  rw [piecesBy, readBy, readBy_append, inner, Option.bind_some,
    sound.readBy_inside (piecesBy_eq_some_iff.mp read), Option.bind_some, sound.plain (by decide)]
  rfl

theorem piecesBy_sign (sound : Sound way) (sign : IsSign c) :
    piecesBy way (c :: rest) = (piecesBy way rest).map (.sign c :: ·) := by
  rw [piecesBy, readBy, piecesBy]
  cases Reader.start.readBy way rest with
  | none => rfl
  | some now =>
    rw [Option.bind_some, sound.plain sign.noMark, Option.bind_some]
    obtain ⟨quotation, inner, base⟩ := now
    cases quotation with
    | some quotation =>
      have other : c ≠ quotation.mark := by
        rintro rfl
        exact absurd quotation.isMark (Bool.eq_false_iff.mp sign.noMark)
      simp [Reader.take, quote, other, finish]
    | none =>
      simp [Reader.take, sign.noMark, sign.noClosing, sign.noOpening, sign.noName]
      cases inner <;> rfl

theorem piecesBy_word (sound : Sound way) {chars : List Char}
    (names : ∀ c ∈ chars, isWordChar c = true)
    (filled : chars ≠ []) : piecesBy way chars = some [.word chars] := by
  suffices Reader.start.readBy way chars = some ⟨none, [], [.word chars]⟩ from
    piecesBy_eq_some_iff.mpr this
  induction chars with
  | nil => exact absurd rfl filled
  | cons c rest ih =>
    have name := names c List.mem_cons_self
    have noMark := isMark_eq_false_of_isWordChar name
    have noClosing : c ≠ ')' := by rintro rfl; revert name; decide
    have noOpening : c ≠ '(' := by rintro rfl; revert name; decide
    rw [readBy]
    cases rest with
    | nil =>
      rw [readBy, Option.bind_some, sound.plain noMark]
      simp [start, Reader.take, noMark, noClosing, noOpening, name, Reader.onLevel,
        Boolean.lengthen]
    | cons next rest =>
      rw [ih (fun other member => names other (List.mem_cons_of_mem c member))
        (List.cons_ne_nil _ _), Option.bind_some, sound.plain noMark]
      simp [Reader.take, noMark, noClosing, noOpening, name, Reader.onLevel, Boolean.lengthen]

theorem chars_of_piecesBy (sound : Sound way) (read : piecesBy way text = some pieces) :
    pieces.flatMap Piece.chars = text :=
  readBy_preserves (fun now text => now.chars = text)
    (fun same taken => by rw [(sound.takes taken).chars_eq, same]) rfl
    (piecesBy_eq_some_iff.mp read)

theorem formed_of_piecesBy (sound : Sound way) (read : piecesBy way text = some pieces) :
    Boolean.Formed pieces := by
  have formed : Reader.Formed ⟨none, [], pieces⟩ :=
    readBy_preserves (fun now _ => now.Formed)
      (fun formed taken => (sound.takes taken).formed formed) .start (piecesBy_eq_some_iff.mp read)
  exact formed.base

theorem lawful (sound : Sound way) : Lawful (piecesBy way) where
  nil := rfl
  append := sound.piecesBy_append
  parens := sound.piecesBy_parens
  sign := sound.piecesBy_sign
  word := sound.piecesBy_word
  chars := sound.chars_of_piecesBy
  formed := sound.formed_of_piecesBy

end Reader.Sound

theorem Reader.readBy_take : now.readBy Reader.take text = now.read text := by
  induction text with
  | nil => rfl
  | cons c rest ih => rw [readBy, ih, read]

theorem piecesBy_take : piecesBy Reader.take = pieces? := by
  funext text
  rw [piecesBy, Reader.readBy_take, pieces?]

/-- Quotations hide what is in them. -/
theorem lawful_pieces? : Lawful pieces? := piecesBy_take ▸ Reader.sound_take.lawful

/-- The pieces of a text in which quotation marks are signs like any others. -/
abbrev plainPieces? : List Char → Option (List Piece) := piecesBy Reader.takePlain

theorem lawful_plainPieces? : Lawful plainPieces? := Reader.sound_takePlain.lawful

end SelectCompiler.Boolean
