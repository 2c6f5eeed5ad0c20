import SelectCompiler.Settings.Yaml.Gap
import SelectCompiler.Text.Taken

/-!
Texts without quotes in YAML: words on one line or on several. A colon at the end of a word ends
the text, and so does a comment, a line that starts before the margin, and, in a flow collection,
each of its marks.
-/

namespace SelectCompiler.Yaml

/-- Whether a text without quotes goes no further than here. -/
def endsPlain (inFlow : Bool) : List Char → Bool
  | [] => true
  | c :: rest =>
    isSpace c || c == '\n' || (inFlow && isFlowMark c)
      || (c == ':' && (endsWord rest || (inFlow && rest.head?.any isFlowMark)))

/-- The first word and what stands behind it. -/
def plainWord (inFlow : Bool) : List Char → List Char × List Char
  | [] => ([], [])
  | c :: rest =>
    if endsPlain inFlow (c :: rest) then ([], c :: rest)
    else
      let (more, behind) := plainWord inFlow rest
      (c :: more, behind)

/-- The pause at the front of characters and what stands behind it. -/
def plainPause? (margin : Nat) (part : GapPart) (pause : Pause) :
    List Char → Option (Pause × List Char)
  | [] => some (pause, [])
  | c :: rest =>
    if c = '\n' then plainPause? margin .blank pause.addBreak rest
    else if part = .comment ∨ (part = .tabbed ∧ c = '#') then
      plainPause? margin .comment pause rest
    else if isSpace c then
      let isMisplaced := c == '\t' && pause.isBefore margin
      plainPause? margin (if isMisplaced then .tabbed else part) (pause.addSpace c) rest
    else if part = .tabbed then none
    else some (pause, c :: rest)

/-- Whether a text ends with the word before a pause. -/
def Pause.endsPlain (inFlow : Bool) (margin : Nat) (behind : List Char) (pause : Pause) : Bool :=
  (!inFlow && pause.isBefore margin) || pause.isOutside behind || behind.head? == some '#'

/-- A text without quotes and what stands behind it and the gap there. A dash may not stand right
before a mark of a flow collection. -/
def plain? (inFlow : Bool) (margin : Nat) (chars : List Char) :
    Option (List Char × List Char) :=
  if inFlow && chars.head? == some '-' && (chars.drop 1).head?.any isFlowMark then none
  else
    let word := (plainWord inFlow chars).1
    let read? : Option (Taken Pause chars) :=
      Taken.ofRead? (plainPause? margin .blank (.onLine []) (plainWord inFlow chars).2)
    if word.isEmpty then some ([], chars)
    else
      read?.bind fun ⟨pause, behind, _⟩ =>
        if pause.endsPlain inFlow margin behind then some (word, behind)
        else
          (plain? inFlow margin behind).map fun (more, last) =>
            (if more.isEmpty then word else word ++ pause.text ++ more, last)
termination_by chars.length

end SelectCompiler.Yaml
