import SelectCompiler.Settings.Toml.Scalar
import SelectCompiler.Settings.Toml.Tables

/-!
TOML text read into the keys of its document and their values. A document is a sequence of lines;
only lists and texts in three quotes go over line ends.
-/

namespace SelectCompiler.Toml

def skip (chars : List Char) : List Char := chars.dropWhile isSpace

theorem length_skip (chars : List Char) : (skip chars).length ≤ chars.length :=
  (List.dropWhile_sublist isSpace).length_le

/-- How deep lists and inline tables may be nested. -/
def depthLimit : Nat := 79

/-- How many names a dotted key may have. -/
def pathLimit : Nat := 79

/-- Letters, digits, underscores and dashes, all ASCII. -/
def isBareChar (c : Char) : Bool := c.isAlphanum || c == '_' || c == '-'

/-- A name, bare or in quotes. -/
def name? (chars : List Char) : Option (Taken String chars) :=
  match chars with
  | '"' :: rest => (basic? rest).map fun name => (name.map String.ofList).behind ['"']
  | '\'' :: rest => (literal? rest).map fun name => (name.map String.ofList).behind ['\'']
  | c :: rest =>
    if isBareChar c then
      some ⟨String.ofList (c :: rest.takeWhile isBareChar), rest.dropWhile isBareChar, by
        have := (List.dropWhile_sublist isBareChar (l := rest)).length_le
        simp
        omega⟩
    else none
  | [] => none

/-- The first character behind spaces. -/
def front? (chars : List Char) : Option (Taken Char chars) := Taken.head? (some (skip chars))

/-- Names parted by points, with spaces around each. -/
def names? (chars : List Char) : Option (Taken (List String) chars) :=
  match name? (skip chars) with
  | none => none
  | some first =>
    have reached : first.rest.length < chars.length :=
      Nat.lt_of_lt_of_le first.shorter (length_skip chars)
    match front? first.rest with
    | some ⟨'.', rest, shorter⟩ =>
      have fewer : rest.length < chars.length := Nat.lt_trans shorter reached
      (names? rest).map fun more => (more.map (first.value :: ·)).beyond fewer
    | _ =>
      some ⟨[first.value], skip first.rest, Nat.lt_of_le_of_lt (length_skip first.rest) reached⟩
termination_by chars.length

/-- A key of bounded length. -/
def path? (chars : List Char) : Option (Taken (List String) chars) :=
  (names? chars).filter fun path => path.value.length ≤ pathLimit

/-- What stands behind spaces, line breaks and comments; `inComment` says that a comment has been
opened. -/
def afterGap? (inComment : Bool) : List Char → Option (List Char)
  | [] => if inComment then none else some []
  | '\n' :: rest => afterGap? false rest
  | '\r' :: '\n' :: rest => afterGap? false rest
  | c :: rest =>
    if inComment then if isControl c then none else afterGap? true rest
    else if c = '#' then afterGap? true rest
    else if isSpace c then afterGap? false rest
    else some (c :: rest)

/-- The first character behind a gap. -/
def mark? (chars : List Char) : Option (Taken Char chars) := Taken.head? (afterGap? false chars)

mutual
/-- A value, with room for `room` levels of nesting. -/
def value? (room : Nat) (chars : List Char) : Option (Taken SettingValue chars) :=
  match chars with
  | '[' :: rest =>
    if room = 0 then none
    else (items? (room - 1) rest).map fun ⟨_, behind, _⟩ => ⟨.unfit, behind, by simp; omega⟩
  | '\x7b' :: rest =>
    if room = 0 then none
    else
      (pairs? (room - 1) true rest).bind fun ⟨pairs, behind, _⟩ =>
        (pairs.foldlM (fun tables pair => Tables.assign? tables [] pair.1 pair.2) []).map fun _ =>
          ⟨if pairs.isEmpty then .emptyTable else .unfit, behind, by simp; omega⟩
  | chars => scalar? chars
termination_by 2 * chars.length

/-- The values of a list and its closing bracket; a comma may stand behind the last. -/
def items? (room : Nat) (chars : List Char) : Option (Taken Unit chars) :=
  match mark? chars with
  | none => none
  | some ⟨']', rest, shorter⟩ => some ⟨(), rest, shorter⟩
  | some ⟨c, rest, shorter⟩ =>
    (value? room (c :: rest)).bind fun ⟨_, rest, _⟩ =>
      match mark? rest with
      | some ⟨']', behind, _⟩ => some ⟨(), behind, by simp at *; omega⟩
      | some ⟨',', behind, _⟩ =>
        (items? room behind).map fun ⟨_, behind, _⟩ => ⟨(), behind, by simp at *; omega⟩
      | _ => none
termination_by 2 * chars.length + 1
decreasing_by
  · simp
    omega
  · simp at *
    omega

/-- The pairs of an inline table and its closing bracket, which may come at once if `mayClose`. -/
def pairs? (room : Nat) (mayClose : Bool) (chars : List Char) :
    Option (Taken (List (List String × SettingValue)) chars) :=
  match front? chars with
  | some ⟨'\x7d', rest, fewer⟩ => if mayClose then some ⟨[], rest, fewer⟩ else none
  | _ =>
    (path? chars).bind fun ⟨path, rest, _⟩ =>
      match front? rest with
      | some ⟨'=', rest, _⟩ =>
        have begun : (skip rest).length < chars.length := by
          have := length_skip rest
          omega
        (value? room (skip rest)).bind fun ⟨value, behind, _⟩ =>
          match front? behind with
          | some ⟨'\x7d', last, _⟩ => some ⟨[(path, value)], last, by omega⟩
          | some ⟨',', behind, _⟩ =>
            (pairs? room false behind).map fun ⟨more, last, _⟩ =>
              ⟨(path, value) :: more, last, by omega⟩
          | _ => none
      | _ => none
termination_by 2 * chars.length + 1
end

inductive Line where
  | blank
  | table (path : List String)
  | element (path : List String)
  | entry (path : List String) (content : SettingValue)

/-- What a line says, up to the spaces or the comment at its end. -/
def content? (chars : List Char) : Option (Line × List Char) :=
  match chars with
  | '[' :: '[' :: rest => do
    let path ← path? rest
    match path.rest with
    | ']' :: ']' :: behind => some (.element path.value, behind)
    | _ => none
  | '[' :: rest => do
    let path ← path? rest
    match path.rest with
    | ']' :: behind => some (.table path.value, behind)
    | _ => none
  | chars => do
    let path ← path? chars
    match path.rest with
    | '=' :: rest =>
      let value ← value? depthLimit (skip rest)
      some (.entry path.value value.value, value.rest)
    | _ => none

/-- What stands behind the end of a line and a comment there. -/
def afterLine? (chars : List Char) : Option (List Char) :=
  let behind :=
    match skip chars with
    | '#' :: comment => comment.dropWhile (!isControl ·)
    | behind => behind
  if behind.isEmpty then some [] else afterBreak? behind

/-- The first line and what stands behind it. -/
def line? (chars : List Char) : Option (Taken Line chars) :=
  Taken.ofRead? (match afterLine? chars with
    | some behind => some (.blank, behind)
    | none => do
      let (line, rest) ← content? (skip chars)
      return (line, ← afterLine? rest))

/-- The lines of a whole text. -/
def lines? (chars : List Char) : Option (List Line) :=
  match chars with
  | [] => some []
  | c :: rest =>
    (line? (c :: rest)).bind fun first => (lines? first.rest).map (first.value :: ·)
termination_by chars.length
decreasing_by exact first.shorter

/-- The tables so far and the place of the one that entries belong to. -/
structure Document where
  tables : Tables
  current : Place

def Document.add? (document : Document) : Line → Option Document
  | .blank => some document
  | .table path => (document.tables.openTable? path).map fun (tables, place) => ⟨tables, place⟩
  | .element path => (document.tables.openElement? path).map fun (tables, place) => ⟨tables, place⟩
  | .entry path content =>
    (document.tables.assign? document.current path content).map fun tables =>
      { document with tables := tables }

/-- The keys of a document and their values, unless the text is malformed. -/
def read? (text : String) : Option (List (String × SettingValue)) := do
  let lines ← lines? text.toList
  let document ← lines.foldlM Document.add? ⟨[], []⟩
  return document.tables.entries

end SelectCompiler.Toml
