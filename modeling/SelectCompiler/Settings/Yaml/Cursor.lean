/-!
Places in a YAML text. Layout matters in YAML, so a place knows the line and the column it is at and
whether anything stands before it on its line.
-/

namespace SelectCompiler.Yaml

def isSpace (c : Char) : Bool := c == ' ' || c == '\t'

/-- The characters with a meaning of their own in flow collections. -/
def isFlowMark (c : Char) : Bool :=
  c == ',' || c == '[' || c == ']' || c == '\x7b' || c == '\x7d'

/-- Letters, digits, underscores and dashes, all ASCII. -/
def isNameChar (c : Char) : Bool := c.isAlphanum || c == '_' || c == '-'

def endsLine : List Char → Bool
  | [] | '\n' :: _ => true
  | _ => false

/-- Whether a word that came before has its end here. -/
def endsWord : List Char → Bool
  | [] => true
  | c :: _ => isSpace c || c == '\n'

/-- Whether characters start with a mark of three characters around a document. -/
def startsMark (mark : List Char) (chars : List Char) : Bool :=
  chars.take 3 == mark && endsWord (chars.drop 3)

def opensDocument (chars : List Char) : Bool := startsMark ['-', '-', '-'] chars

def closesDocument (chars : List Char) : Bool := startsMark ['.', '.', '.'] chars

/-- A text up to its first null character, with all line breaks alike. -/
def normalized : List Char → List Char
  | [] | '\x00' :: _ => []
  | '\r' :: '\n' :: rest => '\n' :: normalized rest
  | '\r' :: rest => '\n' :: normalized rest
  | c :: rest => c :: normalized rest

structure Position where
  index : Nat := 0
  line : Nat := 0
  column : Nat := 0
  /-- Whether nothing but spaces stands before it on its line. -/
  isFresh : Bool := true
  deriving DecidableEq, Repr

def Position.after (position : Position) (c : Char) : Position :=
  let index := position.index + 1
  if c = '\n' then ⟨index, position.line + 1, 0, true⟩
  else ⟨index, position.line, position.column + 1, position.isFresh && isSpace c⟩

/-- A position with the characters ahead of it. -/
structure Cursor where
  position : Position
  ahead : List Char
  deriving DecidableEq, Repr

/-- Move on until no more than `rest` is ahead. -/
def Cursor.moveTo (cursor : Cursor) (rest : List Char) : Cursor :=
  let passed := cursor.ahead.take (cursor.ahead.length - rest.length)
  ⟨passed.foldl Position.after cursor.position, rest⟩

end SelectCompiler.Yaml
