import SelectCompiler.Join.Basic

/-!
The tables that a join condition mentions. A mention is a known key before the first point of a
token; the quotes around it do not count.
-/

namespace SelectCompiler.Join

/-- Characters of names, points and quotes; ASCII only. -/
def isTokenChar (c : Char) : Bool :=
  c.isAlphanum || c == '_' || c == '.' || c == '"' || c == '\x60'

def isQuote (c : Char) : Bool := c == '"' || c == '\x60'

/-- A name without the quotes around it. -/
def unquoted (chars : List Char) : List Char :=
  ((chars.dropWhile isQuote).reverse.dropWhile isQuote).reverse

/-- What stands before the first point of a token. -/
def qualifier? (token : List Char) : Option String :=
  if token.contains '.' then
    some (String.ofList (unquoted (token.takeWhile fun c => c != '.')))
  else none

/-- The known keys that qualify something in a condition, each once, in order of first mention. -/
def qualifiers (known : List String) (condition : String) : List String :=
  ((condition.toList.splitOnP (!isTokenChar ·)).filterMap qualifier?).filter known.contains
    |>.eraseDups

/-- The other tables that a join's condition mentions. -/
def dependencies (known : List String) (join : Join) : List String :=
  (qualifiers known join.condition).filter fun key => !(join.tables.map (·.key)).contains key

end SelectCompiler.Join
