import SelectCompiler.Settings.Yaml.Gap

/-!
Block texts in YAML: whole lines behind a mark, which keeps the line breaks or folds them. The first
line that is not empty tells the indentation, unless the mark does.
-/

namespace SelectCompiler.Yaml

/-- What becomes of the line breaks at the end of a block text. -/
inductive Chomping where
  | strip
  | clip
  | keep
  deriving DecidableEq, Repr

structure BlockStyle where
  /-- Whether single line breaks are spaces. -/
  isFolded : Bool
  chomping : Chomping
  deriving DecidableEq, Repr

def chomping? : List Char → Option Chomping × List Char
  | '-' :: rest => (some .strip, rest)
  | '+' :: rest => (some .keep, rest)
  | chars => (none, chars)

def indentation? : List Char → Option Nat × List Char
  | [] => (none, [])
  | c :: rest =>
    if c.isDigit then (some (c.toNat - '0'.toNat), rest) else (none, c :: rest)

/-- The style and the extra indentation behind the mark of a block text, in either order. -/
def blockHeader? (isFolded : Bool) (chars : List Char) :
    Option (BlockStyle × Option Nat × List Char) :=
  let (first, rest) := chomping? chars
  let (indentation, rest) := indentation? rest
  let (second, rest) := if first.isNone then chomping? rest else (none, rest)
  if indentation = some 0 then none
  else some (⟨isFolded, (first.or second).getD .clip⟩, indentation, rest)

/-- The start of a line that is not empty. -/
structure LineStart where
  emptyLines : Nat
  column : Nat
  /-- The most spaces at the front of a line on the way here. -/
  widest : Nat
  behind : List Char

/-- The next line that is not empty, without its spaces up to a limit. -/
def nextLine (limit : Option Nat) (emptyLines column widest : Nat) : List Char → LineStart
  | [] => ⟨emptyLines, column, max widest column, []⟩
  | c :: rest =>
    if c = ' ' ∧ limit.all (column < ·) then nextLine limit emptyLines (column + 1) widest rest
    else if c = '\n' then nextLine limit (emptyLines + 1) 0 (max widest column) rest
    else ⟨emptyLines, column, max widest column, c :: rest⟩

theorem length_nextLine (limit : Option Nat) (emptyLines column widest : Nat)
    (chars : List Char) :
    (nextLine limit emptyLines column widest chars).behind.length ≤ chars.length := by
  induction chars generalizing emptyLines column widest with
  | nil => simp [nextLine]
  | cons c rest ih =>
    simp only [nextLine]
    split
    · exact Nat.le_succ_of_le (ih ..)
    · split
      · exact Nat.le_succ_of_le (ih ..)
      · exact Nat.le_refl _

/-- The line breaks at the end of a block text; `hasBreak` says that its last line has one. -/
def BlockStyle.ending (style : BlockStyle) (indent : Nat) (hasBreak : Bool) (start : LineStart) :
    List Char :=
  match style.chomping with
  | .strip => []
  | .clip => last
  | .keep => last ++ List.replicate start.emptyLines '\n'
where
  last : List Char :=
    let isCut := start.behind.isEmpty && max indent 1 ≤ start.column
    (if hasBreak then ['\n'] else []) ++ (if isCut then ['\n'] else [])

/-- What stands between a line that starts with a space or not and the next one. -/
def BlockStyle.joint (style : BlockStyle) (before? : Option Bool) (emptyLines : Nat)
    (isSpaced : Bool) : List Char :=
  match before? with
  | none => List.replicate emptyLines '\n'
  | some wasSpaced =>
    if style.isFolded && !wasSpaced && !isSpaced then
      if emptyLines = 0 then [' '] else List.replicate emptyLines '\n'
    else List.replicate (emptyLines + 1) '\n'

/-- The lines of a block text from one of them on, and what stands behind them. Of the line before,
`before?` tells whether it starts with a space. -/
def blockLines (style : BlockStyle) (indent : Nat) (before? : Option Bool) (start : LineStart) :
    List Char × List Char :=
  let ended := (style.ending indent before?.isSome start, start.behind)
  match found : start.behind with
  | [] => ended
  | c :: rest =>
    if start.column ≠ indent ∨ (indent = 0 ∧ closesDocument (c :: rest)) then ended
    else
      let line := c :: rest.takeWhile (· != '\n')
      let joint := style.joint before? start.emptyLines (isSpace c)
      match foundBreak : rest.dropWhile (· != '\n') with
      | [] => (joint ++ line ++ (if style.chomping = .strip then [] else ['\n']), [])
      | _ :: behind =>
        let next := nextLine (some indent) 0 0 0 behind
        have : next.behind.length < start.behind.length := by
          have reached := (List.dropWhile_sublist (· != '\n') (l := rest)).length_le
          have : next.behind.length ≤ behind.length := length_nextLine (some indent) 0 0 0 behind
          rw [foundBreak] at reached
          rw [found]
          simp only [List.length_cons] at *
          omega
        let (more, last) := blockLines style indent (some (isSpace c)) next
        (joint ++ line ++ more, last)
termination_by start.behind.length

/-- A block text behind its mark, and what stands behind it. The block around it keeps what is in it
behind a margin. -/
def block? (isFolded : Bool) (margin : Nat) (chars : List Char) :
    Option (List Char × List Char) :=
  (blockHeader? isFolded chars).bind fun (style, indentation, rest) =>
    (behindSpaces? rest).bind fun
      | [] => some ([], [])
      | '\n' :: '\t' :: _ => none
      | '\n' :: rest =>
        let limit := indentation.map fun extra => margin - 1 + extra
        let start := nextLine limit 0 0 0 rest
        let indent := limit.getD (max start.widest margin)
        if start.behind.isEmpty then
          match style.chomping with
          | .strip => some ([], [])
          | .clip => some (['\n'], [])
          | .keep => some (List.replicate (max start.emptyLines 1) '\n', [])
        else if margin ≤ start.column ∧ start.column < indent then none
        else some (blockLines style indent none start)
      | _ => none

end SelectCompiler.Yaml
