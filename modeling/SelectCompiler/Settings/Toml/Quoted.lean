import SelectCompiler.Text.Numeral
import SelectCompiler.Text.Taken

/-!
Quoted texts in TOML. Double quotes hold escapes and single quotes none; three quotes in a row open
a text of several lines, which may hold up to two quotes of its kind next to each other.
-/

namespace SelectCompiler.Toml

def isSpace (c : Char) : Bool := c == ' ' || c == '\t'

/-- Control characters other than the tab; neither a text nor a comment holds one. -/
def isControl (c : Char) : Bool := (c.toNat < 0x20 && c != '\t') || c.toNat == 0x7F

/-- What stands behind a line break; a carriage return is part of one only before a line feed. -/
def afterBreak? : List Char → Option (List Char)
  | '\n' :: rest => some rest
  | '\r' :: '\n' :: rest => some rest
  | _ => none

theorem length_afterBreak? {chars rest : List Char} (found : afterBreak? chars = some rest) :
    rest.length < chars.length := by
  unfold afterBreak? at found
  split at found <;> cases found <;> simp only [List.length_cons] <;> omega

/-- The letters that may follow a backslash, with the characters they stand for. -/
def letterEscape? : Char → Option Char
  | '"' => some '"'
  | '\\' => some '\\'
  | 'b' => some '\x08'
  | 'f' => some '\x0c'
  | 'n' => some '\n'
  | 'r' => some '\r'
  | 't' => some '\t'
  | _ => none

/-- The character behind a backslash, given by a letter or by its code point. -/
def escaped? (chars : List Char) : Option (Taken Char chars) :=
  match chars with
  | 'u' :: a :: b :: c :: d :: rest =>
    ((Text.hexUnit? a b c d).bind Text.character?).map fun found =>
      (Taken.one found d rest).behind ['u', a, b, c]
  | 'U' :: a :: b :: c :: d :: e :: f :: g :: h :: rest =>
    (Text.hexUnit? a b c d).bind fun high =>
      (Text.hexUnit? e f g h).bind fun low =>
        (Text.character? (high * 0x10000 + low)).map fun found =>
          (Taken.one found h rest).behind ['U', a, b, c, d, e, f, g]
  | letter :: rest => (letterEscape? letter).map fun found => .one found letter rest
  | [] => none

/-- The characters up to the closing double quote. -/
def basic? (chars : List Char) : Option (Taken (List Char) chars) :=
  match chars with
  | [] => none
  | '"' :: rest => some (.one [] '"' rest)
  | '\\' :: rest =>
    (escaped? rest).bind fun first =>
      (basic? first.rest).map fun more =>
        (first.followed (more.map (first.value :: ·))).behind ['\\']
  | c :: rest =>
    if isControl c then none
    else (basic? rest).map fun more => (more.map (c :: ·)).behind [c]
termination_by chars.length
decreasing_by
  · have := first.shorter
    simp
    omega
  · simp

/-- The characters up to the closing single quote, as they are. -/
def literal? (chars : List Char) : Option (Taken (List Char) chars) :=
  match chars with
  | [] => none
  | '\'' :: rest => some (.one [] '\'' rest)
  | c :: rest =>
    if isControl c then none
    else (literal? rest).map fun more => (more.map (c :: ·)).behind [c]

/-- Whether nothing but spaces stands before the end of the line. -/
def endsLine (chars : List Char) : Bool :=
  (afterBreak? (chars.dropWhile isSpace)).isSome

/-- The quotes behind three closing ones that still belong to the text. -/
def innerQuotes (quote : Char) (rest : List Char) : List Char :=
  (rest.take 2).takeWhile (· == quote)

/-- The characters up to three closing double quotes. A backslash at the end of a line takes all
spaces and line breaks behind it away; `skipping` says that one has just been read. -/
def basicLines? (skipping : Bool) (chars : List Char) : Option (Taken (List Char) chars) :=
  match chars with
  | [] => none
  | '"' :: '"' :: '"' :: rest =>
    let inner := innerQuotes '"' rest
    some ⟨inner, rest.drop inner.length, by simp; omega⟩
  | '\\' :: rest =>
    if endsLine rest then (basicLines? true rest).map fun more => more.behind ['\\']
    else
      (escaped? rest).bind fun first =>
        (basicLines? false first.rest).map fun more =>
          (first.followed (more.map (first.value :: ·))).behind ['\\']
  | c :: rest =>
    match found : afterBreak? (c :: rest) with
    | some behind =>
      (basicLines? skipping behind).map fun more =>
        (if skipping then more else more.map ('\n' :: ·)).within
          (Nat.le_of_lt (length_afterBreak? found))
    | none =>
      if skipping && isSpace c then (basicLines? true rest).map fun more => more.behind [c]
      else if isControl c then none
      else (basicLines? false rest).map fun more => (more.map (c :: ·)).behind [c]
termination_by chars.length
decreasing_by
  · simp
  · have := first.shorter
    simp
    omega
  · exact length_afterBreak? found
  · simp
  · simp

/-- The characters up to three closing single quotes, as they are. -/
def literalLines? (chars : List Char) : Option (Taken (List Char) chars) :=
  match chars with
  | [] => none
  | '\'' :: '\'' :: '\'' :: rest =>
    let inner := innerQuotes '\'' rest
    some ⟨inner, rest.drop inner.length, by simp; omega⟩
  | c :: rest =>
    match found : afterBreak? (c :: rest) with
    | some behind =>
      (literalLines? behind).map fun more =>
        (more.map ('\n' :: ·)).within (Nat.le_of_lt (length_afterBreak? found))
    | none =>
      if isControl c then none
      else (literalLines? rest).map fun more => (more.map (c :: ·)).behind [c]
termination_by chars.length
decreasing_by
  · exact length_afterBreak? found
  · simp

/-- The text behind three opening quotes starts on the next line when the first is empty. -/
def firstLine (chars : List Char) : List Char := (afterBreak? chars).getD chars

theorem length_firstLine (chars : List Char) : (firstLine chars).length ≤ chars.length := by
  unfold firstLine
  cases found : afterBreak? chars with
  | none => simp
  | some rest => exact Nat.le_of_lt (length_afterBreak? found)

/-- A text in any of the four kinds of quotes. -/
def quoted? (chars : List Char) : Option (Taken (List Char) chars) :=
  match chars with
  | '"' :: '"' :: '"' :: rest =>
    (basicLines? false (firstLine rest)).map fun text =>
      text.within (by have := length_firstLine rest; simp; omega)
  | '\'' :: '\'' :: '\'' :: rest =>
    (literalLines? (firstLine rest)).map fun text =>
      text.within (by have := length_firstLine rest; simp; omega)
  | '"' :: rest => (basic? rest).map fun text => text.behind ['"']
  | '\'' :: rest => (literal? rest).map fun text => text.behind ['\'']
  | _ => none

end SelectCompiler.Toml
