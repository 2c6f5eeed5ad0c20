import SelectCompiler.Text.Blank

/-!
Tables as they are written in a FROM clause, and the keywords that join them.
-/

namespace SelectCompiler

/-- The words of a table reference: its name, and perhaps an alias with or without `AS`. -/
structure TableRef where
  words : List String
  deriving DecidableEq, Repr

namespace TableRef

def ofText (text : String) : TableRef := ⟨Text.words text⟩

/-- The reference with single spaces, as it stands in SQL text. -/
def sql (table : TableRef) : String := " ".intercalate table.words

def name (table : TableRef) : String := table.words.headD ""

def alias? (table : TableRef) : Option String :=
  match table.words.drop 1 with
  | [] => none
  | [word] => some word
  | word :: next :: _ => some (if word.toUpper = "AS" then next else word)

/-- The name that other clauses qualify columns with. -/
def key (table : TableRef) : String := table.alias?.getD table.name

end TableRef

inductive JoinKind where
  | inner
  | left
  | right
  | full
  | cross
  | custom (keyword : String)
  deriving DecidableEq, Repr

namespace JoinKind

def sql : JoinKind → String
  | inner => "INNER JOIN"
  | left => "LEFT JOIN"
  | right => "RIGHT JOIN"
  | full => "FULL OUTER JOIN"
  | cross => "CROSS JOIN"
  | custom keyword => keyword

/-- The kind that a keyword names, in any case and with any blanks between its words. No keyword
means an inner join, and an unknown one is kept in upper case. -/
def ofKeyword (keyword : String) : JoinKind :=
  match (Text.squeeze keyword).toUpper with
  | "" | "JOIN" | "INNER JOIN" => inner
  | "LEFT JOIN" | "LEFT OUTER JOIN" => left
  | "RIGHT JOIN" | "RIGHT OUTER JOIN" => right
  | "FULL JOIN" | "FULL OUTER JOIN" => full
  | "CROSS JOIN" => cross
  | canonical => custom canonical

end JoinKind

end SelectCompiler
