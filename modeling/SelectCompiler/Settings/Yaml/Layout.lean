import SelectCompiler.Settings.Yaml.Block
import SelectCompiler.Settings.Yaml.Plain
import SelectCompiler.Settings.Yaml.Quoted
import SelectCompiler.Settings.Yaml.Token

/-!
The tokens of a YAML text. Blocks start and end by the columns that things stand at, and something
turns out to be a key only when a colon follows it.
-/

namespace SelectCompiler.Yaml

/-- An indentation that has been entered. -/
structure Level where
  /-- The margin around it. -/
  outer : Nat
  /-- Whether it is a block; else it only keeps what belongs to a key off the column of the key. -/
  isBlock : Bool
  deriving DecidableEq, Repr

/-- Something that is a key if a colon follows it. -/
structure Candidate where
  position : Position
  /-- The number of tokens before it. -/
  before : Nat
  /-- Whether nothing but a key may stand there. -/
  isRequired : Bool
  deriving DecidableEq, Repr

/-- A text that has been read up to some place. -/
structure Layout where
  cursor : Cursor
  /-- The tokens so far, the latest first. -/
  tokens : List Token := []
  /-- The first column behind that of the innermost block; zero outside all blocks. -/
  margin : Nat := 0
  levels : List Level := []
  mayStartKey : Bool := true
  candidate : Option Candidate := none
  /-- The candidates around each flow collection that has been entered. -/
  outerCandidates : List (Option Candidate) := []
  /-- Where the last text in quotes or flow collection ended; a colon may stand right behind it. -/
  closedAt : Nat := 0

namespace Layout

def position (layout : Layout) : Position := layout.cursor.position

def ahead (layout : Layout) : List Char := layout.cursor.ahead

def inFlow (layout : Layout) : Bool := !layout.outerCandidates.isEmpty

def add (layout : Layout) (token : Token) : Layout :=
  { layout with tokens := token :: layout.tokens }

/-- Add a token behind the first `before` ones. -/
def insert (layout : Layout) (before : Nat) (token : Token) : Layout :=
  let since := layout.tokens.length - before
  { layout with tokens := layout.tokens.take since ++ token :: layout.tokens.drop since }

def moveTo (layout : Layout) (rest : List Char) : Layout :=
  { layout with cursor := layout.cursor.moveTo rest }

/-- Move past spaces and a comment on the line. -/
def passSpaces? (layout : Layout) : Option Layout :=
  (behindSpaces? layout.ahead).map layout.moveTo

/-- Move past a gap over lines. In blocks, a key may start behind a line break. -/
def passGap? (layout : Layout) : Option Layout :=
  (behindGap? layout.margin .blank layout.position layout.ahead).map fun cursor =>
    let isLater := layout.position.line < cursor.position.line
    { layout with
      cursor := cursor
      mayStartKey := layout.mayStartKey || (isLater && !layout.inFlow) }

/-- Say whether a key may start next. -/
def setKeys (layout : Layout) (mayStartKey : Bool) : Layout :=
  { layout with mayStartKey := mayStartKey }

/-- The margin, the tokens and the levels when all levels with a margin above a bound have ended. -/
def leaveLevels (bound margin : Nat) (tokens : List Token) :
    List Level → Nat × List Token × List Level
  | [] => (margin, tokens, [])
  | level :: outer =>
    if margin ≤ bound then (margin, tokens, level :: outer)
    else
      leaveLevels bound level.outer (if level.isBlock then .blockEnd :: tokens else tokens) outer

/-- Leave all levels with a margin above a bound, outside flow collections. -/
def leave (layout : Layout) (bound : Nat) : Layout :=
  if layout.inFlow then layout
  else
    let (margin, tokens, levels) :=
      leaveLevels bound layout.margin layout.tokens layout.levels
    { layout with margin := margin, tokens := tokens, levels := levels }

/-- The margin and the levels without those that are no blocks. -/
def blocksOnly (margin : Nat) : List Level → Nat × List Level
  | [] => (margin, [])
  | level :: outer =>
    if level.isBlock then (margin, level :: outer) else blocksOnly level.outer outer

/-- Give up the levels inside the innermost block. -/
def narrow (layout : Layout) : Layout :=
  let (margin, levels) := blocksOnly layout.margin layout.levels
  { layout with margin := margin, levels := levels }

/-- What follows has to stand behind the column that the innermost block is at. -/
def widen (layout : Layout) : Layout :=
  if !layout.inFlow && layout.levels.head?.any (·.isBlock) then
    { layout with
      margin := layout.margin + 1
      levels := ⟨layout.margin, false⟩ :: layout.levels }
  else layout

/-- Start a block at a column unless there is one, its first token behind the first `before`. -/
def enter (layout : Layout) (column before : Nat) (token : Token) : Layout :=
  if layout.inFlow then layout
  else
    let layout :=
      match layout.levels with
      | level :: outer =>
        if !level.isBlock && layout.margin ≤ column + 1 then
          { layout with margin := level.outer, levels := outer }
        else layout
      | [] => layout
    if layout.margin ≤ column then
      { layout.insert before token with
        margin := column + 1
        levels := ⟨layout.margin, true⟩ :: layout.levels }
    else layout

/-- What comes next may be a key. At the column of a block it has to be one. -/
def mark (layout : Layout) : Layout :=
  if layout.mayStartKey then
    let isRequired := !layout.inFlow && layout.margin == layout.position.column + 1
      && layout.levels.head?.any (·.isBlock)
    { layout with candidate := some ⟨layout.position, layout.tokens.length, isRequired⟩ }
  else layout

/-- What could be a key is none. -/
def unmark? (layout : Layout) : Option Layout :=
  if layout.candidate.any (·.isRequired) then none else some { layout with candidate := none }

/-- The longest text that may be a key in a block. -/
def keyLimit : Nat := 1024

/-- Outside flow collections, no key goes over lines or is too long. -/
def expire? (layout : Layout) : Option Layout :=
  let isLate := !layout.inFlow && layout.candidate.any fun candidate =>
    candidate.position.line < layout.position.line
      || candidate.position.index + keyLimit < layout.position.index
  if isLate then layout.unmark? else some layout

/-- How deep flow collections may be nested. -/
def depthLimit : Nat := 255

/-- The opening bracket of a flow collection. -/
def openFlow? (layout : Layout) (rest : List Char) (token : Token) : Option Layout :=
  if layout.outerCandidates.length < depthLimit then
    let layout := layout.mark.widen
    let entered := { layout with
      outerCandidates := layout.candidate :: layout.outerCandidates
      candidate := none
      mayStartKey := true }
    (entered.moveTo rest).passSpaces?.map (·.add token)
  else none

/-- The closing bracket of a flow collection. -/
def closeFlow? (layout : Layout) (rest : List Char) (token : Token) : Option Layout := do
  let layout ← layout.unmark?
  let left :=
    match layout.outerCandidates with
    | candidate :: outer => { layout with candidate := candidate, outerCandidates := outer }
    | [] => layout
  let layout ← ((left.setKeys false).moveTo rest).passSpaces?
  return { layout.add token with closedAt := layout.position.index }

def comma? (layout : Layout) (rest : List Char) : Option Layout := do
  let layout ← layout.unmark?
  let layout ← ((layout.setKeys true).moveTo rest).passSpaces?
  return layout.add .comma

/-- The dash of an item. A second dash may not stand behind a tab. -/
def entry? (layout : Layout) (rest : List Char) : Option Layout :=
  if layout.inFlow || !layout.mayStartKey then none
  else do
    let gap ← lineGap? false false rest
    let column := layout.position.column
    let layout := (layout.enter column layout.tokens.length .blockSequence).moveTo gap.behind
    match gap.behind with
    | '-' :: behind => if gap.hasTab && endsWord behind then none else finish layout
    | '\n' :: _ => finish layout.widen
    | c :: _ => finish (if isFlowMark c then layout.widen else layout)
    | [] => finish layout
where
  finish (layout : Layout) : Option Layout :=
    layout.unmark?.map fun layout => (layout.setKeys true).add .entry

/-- What stands behind spaces, line breaks and comments. -/
def behindKeyMark (inComment : Bool) : List Char → List Char
  | [] => []
  | c :: rest =>
    if c = '\n' then behindKeyMark false rest
    else if inComment ∨ c = '#' then behindKeyMark true rest
    else if c = ' ' then behindKeyMark false rest
    else c :: rest

/-- The question mark before a key. No tab may follow it. -/
def keyMark? (layout : Layout) (rest : List Char) : Option Layout := do
  let behind := behindKeyMark false rest
  if behind.length = rest.length ∨ behind.head? = some '\t' then none
  else if layout.inFlow then
    let layout ← layout.unmark?
    return ((layout.setKeys false).moveTo behind).add .key
  else if layout.mayStartKey then
    let column := layout.position.column
    let layout ← (layout.enter column layout.tokens.length .blockMapping).unmark?
    return ((layout.setKeys true).moveTo behind).add .key
  else none

/-- What stands behind a colon and a gap that starts with a tab; no name and no dash may follow such
a gap unless there is a space in it. -/
def behindColon? (rest : List Char) : Option (List Char) :=
  if rest.head? = some '\t' then
    (lineGap? false false rest).bind fun gap =>
      if !gap.hasSpace && gap.behind.head?.any isNameChar then none else some gap.behind
  else some rest

/-- The colon before a value. What could be a key before it is one. -/
def colon? (layout : Layout) (rest : List Char) : Option Layout := do
  let column := layout.position.column
  let layout := layout.moveTo (← behindColon? rest)
  match layout.candidate with
  | some candidate =>
    let layout := (layout.insert candidate.before .key).enter candidate.position.column
      candidate.before .blockMapping
    return ({ layout.widen with candidate := none, mayStartKey := false }).add .value
  | none =>
    if layout.inFlow then return (layout.setKeys false).add .value
    else if layout.mayStartKey then
      return (layout.enter column layout.tokens.length .blockMapping).widen.add .value
    else none

def isAnchorChar (c : Char) : Bool := !isSpace c && c != '\n' && c != '\ufeff' && !isFlowMark c

/-- A name behind its mark. -/
def name? (layout : Layout) (rest : List Char) (token : String → Token) : Option Layout :=
  let name := rest.takeWhile isAnchorChar
  if name.isEmpty then none
  else
    some (((layout.mark.setKeys false).moveTo (rest.dropWhile isAnchorChar)).add
      (token (String.ofList name)))

def addTag? (layout : Layout) (rest : List Char) : Option Layout :=
  (tag? rest).bind fun (tag, behind) =>
    if endsWord behind || (layout.inFlow && behind.head?.any isFlowMark) then
      some (((layout.mark.setKeys false).moveTo behind).add (.tag tag))
    else none

def addBlock? (layout : Layout) (rest : List Char) (isFolded : Bool) : Option Layout :=
  let layout := (layout.mark.setKeys true).narrow
  (block? isFolded layout.margin rest).map fun (text, behind) =>
    (layout.moveTo behind).add (.text false (String.ofList text))

/-- Whether something may follow a closing quote. -/
def mayFollowQuote (layout : Layout) (isOneLine : Bool) : List Char → Bool
  | ':' :: _ => layout.inFlow || isOneLine
  | ',' :: _ | ']' :: _ | '\x7d' :: _ => layout.inFlow
  | chars => endsLine chars

def addQuoted? (layout : Layout) (rest : List Char) (isSingle : Bool) : Option Layout := do
  let text ← quoted? isSingle layout.margin (.onLine []) rest
  let line := layout.position.line
  let layout ← ((layout.mark.setKeys false).moveTo text.rest).passSpaces?
  if layout.mayFollowQuote (layout.position.line == line) layout.ahead then
    let layout ← layout.passGap?
    return { layout.add (.text false (String.ofList text.value)) with
      closedAt := layout.position.index }
  else none

/-- A text without quotes. What stands behind it on a line of its own may be a key. -/
def addPlain? (layout : Layout) : Option Layout :=
  let layout := (layout.mark.setKeys false).narrow
  if layout.inFlow && layout.position.column < layout.margin then none
  else
    (plain? layout.inFlow layout.margin layout.ahead).map fun (text, behind) =>
      let layout := (layout.moveTo behind).add (.text true (String.ofList text))
      layout.setKeys layout.position.isFresh

/-- A mark around documents, or a directive; all blocks end before it. -/
def atMargin? (layout : Layout) : Option Layout :=
  (layout.leave 0).unmark?.map (·.setKeys false)

def directiveLine? (layout : Layout) (rest : List Char) : Option Layout := do
  let (directive, behind) ← directive? rest
  let layout ← layout.atMargin?
  return (layout.moveTo behind).add (.directive directive)

def documentMark? (layout : Layout) (token : Token) : Option Layout := do
  let layout ← layout.atMargin?
  return (layout.moveTo (layout.ahead.drop 3)).add token

/-- The last line of a document; only a comment may stand behind the mark. -/
def documentEnd? (layout : Layout) : Option Layout := do
  let layout ← layout.documentMark? .documentEnd
  let layout ← layout.passSpaces?
  if endsLine layout.ahead then some layout else none

/-- Whether a colon that `rest` follows stands before a value. -/
def isValueMark (layout : Layout) (rest : List Char) : Bool :=
  endsWord rest || (layout.inFlow
    && (rest.head?.any isFlowMark || layout.position.index == layout.closedAt))

/-- The next token, which starts with `c`, and what comes into being with it. -/
def token? (layout : Layout) (c : Char) (rest : List Char) : Option Layout :=
  let isFirst := layout.position.column == 0
  if isFirst && c == '%' then layout.directiveLine? rest
  else if isFirst && opensDocument (c :: rest) then layout.documentMark? .documentStart
  else if isFirst && closesDocument (c :: rest) then layout.documentEnd?
  else if layout.position.column + 1 < layout.margin then none
  else
    match c with
    | '[' => layout.openFlow? rest .flowSequence
    | '\x7b' => layout.openFlow? rest .flowMapping
    | ']' => layout.closeFlow? rest .flowSequenceEnd
    | '\x7d' => layout.closeFlow? rest .flowMappingEnd
    | ',' => layout.comma? rest
    | '-' => if endsWord rest then layout.entry? rest else layout.addPlain?
    | '?' => if endsWord rest then layout.keyMark? rest else layout.addPlain?
    | ':' => if layout.isValueMark rest then layout.colon? rest else layout.addPlain?
    | '*' => layout.name? rest .alias
    | '&' => layout.name? rest .anchor
    | '!' => layout.addTag? rest
    | '|' => if layout.inFlow then layout.addPlain? else layout.addBlock? rest false
    | '>' => if layout.inFlow then layout.addPlain? else layout.addBlock? rest true
    | '\'' => layout.addQuoted? rest true
    | '"' => layout.addQuoted? rest false
    | '%' | '@' | '\x60' => none
    | _ => layout.addPlain?

/-- The tokens of the rest of a text, behind those so far. -/
def tokens? (layout : Layout) : Option (List Token) :=
  (layout.passGap?.bind expire?).bind fun layout' =>
    let layout' := layout'.leave (layout'.position.column + 1)
    match layout'.ahead with
    | [] => (layout'.leave 0).unmark?.map fun ended => ended.tokens.reverse
    | c :: rest =>
      (layout'.token? c rest).bind fun next =>
        if next.ahead.length < layout.ahead.length then next.tokens? else none
termination_by layout.ahead.length

end Layout

/-- The tokens of a whole text. -/
def tokens? (text : String) : Option (List Token) :=
  Layout.tokens? { cursor := ⟨{}, normalized text.toList⟩ }

end SelectCompiler.Yaml
