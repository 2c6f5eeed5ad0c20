import SelectCompiler.Settings.Yaml.Cursor

/-!
What may stand between the words of a YAML text: spaces, comments and line breaks. Indentation is
made of spaces, so a tab inside it is a mistake unless nothing else is on the line.
-/

namespace SelectCompiler.Yaml

/-- What stands behind the spaces and the comment that end a line or part two words on it. -/
structure LineGap where
  hasSpace : Bool
  hasTab : Bool
  behind : List Char

/-- The gap at the front of characters; there has to be a space or a tab before a comment. -/
def lineGap? (hasSpace hasTab : Bool) : List Char → Option LineGap
  | ' ' :: rest => lineGap? true hasTab rest
  | '\t' :: rest => lineGap? hasSpace true rest
  | '#' :: rest =>
    if hasSpace || hasTab then some ⟨hasSpace, hasTab, rest.dropWhile (· != '\n')⟩ else none
  | chars => some ⟨hasSpace, hasTab, chars⟩

/-- The characters behind a gap on the line. -/
def behindSpaces? (chars : List Char) : Option (List Char) :=
  (lineGap? false false chars).map (·.behind)

/-- Where in a gap over lines a character stands. -/
inductive GapPart where
  | blank
  /-- Behind a tab in the indentation. -/
  | tabbed
  | comment
  deriving DecidableEq

/-- The cursor behind a gap over lines. A block keeps what is in it behind a margin. -/
def behindGap? (margin : Nat) (part : GapPart) (position : Position) :
    List Char → Option Cursor
  | [] => some ⟨position, []⟩
  | c :: rest =>
    let next := position.after c
    if c = '\n' then behindGap? margin .blank next rest
    else if part = .comment ∨ c = '#' then behindGap? margin .comment next rest
    else if isSpace c then
      let isMisplaced := c == '\t' && position.isFresh && position.column + 1 < margin
      behindGap? margin (if isMisplaced then .tabbed else part) next rest
    else if part = .tabbed then none
    else some ⟨position, c :: rest⟩

/-- What stands between two words of a text that may go over lines. -/
inductive Pause where
  | onLine (spaces : List Char)
  /-- Line breaks: whether the first counts, the number of empty lines, and the column reached. -/
  | overLines (isFolded : Bool) (emptyLines column : Nat)

namespace Pause

/-- A single line break is a space; of more, the first counts for nothing. -/
def text : Pause → List Char
  | onLine spaces => spaces
  | overLines isFolded emptyLines _ =>
    if emptyLines = 0 then if isFolded then [' '] else [] else List.replicate emptyLines '\n'

def addSpace (c : Char) : Pause → Pause
  | onLine spaces => onLine (spaces ++ [c])
  | overLines isFolded emptyLines column => overLines isFolded emptyLines (column + 1)

def addBreak : Pause → Pause
  | onLine _ => overLines true 0 0
  | overLines isFolded emptyLines _ => overLines isFolded (emptyLines + 1) 0

/-- Whether what follows starts a line before some column. -/
def isBefore (limit : Nat) : Pause → Bool
  | onLine _ => false
  | overLines _ _ column => column < limit

/-- Whether what follows starts a line and parts documents. -/
def isOutside (behind : List Char) : Pause → Bool
  | overLines _ _ 0 => opensDocument behind || closesDocument behind
  | _ => false

end Pause

end SelectCompiler.Yaml
