import SelectCompiler.Settings.Yaml.Gap
import SelectCompiler.Text.Numeral
import SelectCompiler.Text.Taken

/-!
Tags and directives in YAML. A tag is a handle and what stands behind it; a directive may say what a
handle stands for.
-/

namespace SelectCompiler.Yaml

/-- A tag, with its handle as it is written or with what that stands for. -/
structure Tag where
  handle : String
  suffix : String
  deriving DecidableEq, Repr

/-- What the handle of the tags for the kinds of plain texts stands for. -/
def coreHandle : String := "tag:yaml.org,2002:"

def isAddressChar (c : Char) : Bool := isNameChar c || "#;/?:@&=+$,.!~*'()[]%".toList.contains c

def isTagChar (c : Char) : Bool := isAddressChar c && !isFlowMark c && c != '!'

/-- The characters of a class at the front; a percent sign and two digits stand for one. -/
def addressed? (isMember : Char → Bool) : List Char → Option (List Char × List Char)
  | [] => some ([], [])
  | '%' :: a :: b :: rest => do
    let first ← (Text.inBase? 16 [a, b]).bind Text.character?
    let (more, behind) ← addressed? isMember rest
    return (first :: more, behind)
  | c :: rest =>
    if c = '%' then none
    else if isMember c then
      (addressed? isMember rest).map fun (more, behind) => (c :: more, behind)
    else some ([], c :: rest)

/-- A tag without the exclamation mark at its front, and what stands behind it. -/
def tag? (chars : List Char) : Option (Tag × List Char) :=
  let name := chars.takeWhile isNameChar
  match chars, chars.dropWhile isNameChar with
  | '<' :: rest, _ => do
    let (address, behind) ← addressed? isAddressChar rest
    match behind with
    | '>' :: behind => return (⟨"", String.ofList address⟩, behind)
    | _ => none
  | _, '!' :: rest => do
    let (suffix, behind) ← addressed? isTagChar rest
    if suffix.isEmpty then none
    else return (⟨String.ofList ('!' :: name ++ ['!']), String.ofList suffix⟩, behind)
  | _, rest => do
    let (suffix, behind) ← addressed? isTagChar rest
    let suffix := name ++ suffix
    return (if suffix.isEmpty then ⟨"", "!"⟩ else ⟨"!", String.ofList suffix⟩, behind)

/-- A tag with what its handle stands for. A handle between two exclamation marks has to have been
given a meaning, but for the one without a name. -/
def Tag.resolve? (handles : List (String × String)) (tag : Tag) : Option Tag :=
  match handles.lookup tag.handle with
  | some meaning => some ⟨meaning, tag.suffix⟩
  | none =>
    if tag.handle = "!!" then some ⟨coreHandle, tag.suffix⟩
    else if 2 ≤ tag.handle.length then none
    else some tag

inductive Directive where
  | version
  | handle (name meaning : String)
  | other
  deriving DecidableEq, Repr

/-- A part of a version, which has up to nine digits. -/
def versionPart? (chars : List Char) : Option (List Char) :=
  let digits := chars.takeWhile Char.isDigit
  if digits.isEmpty || 9 < digits.length then none else some (chars.dropWhile Char.isDigit)

def version? (chars : List Char) : Option (Directive × List Char) := do
  match ← versionPart? chars with
  | '.' :: rest => return (.version, ← versionPart? rest)
  | _ => none

/-- A handle and what it stands for. -/
def handle? (chars : List Char) : Option (Directive × List Char) :=
  match chars with
  | '!' :: rest => do
    let name := rest.takeWhile isNameChar
    let (handle, rest) ←
      match name, rest.dropWhile isNameChar with
      | name, '!' :: rest => some ('!' :: name ++ ['!'], rest)
      | [], rest => some (['!'], rest)
      | _, _ => none
    let (opening, rest) :=
      match rest.dropWhile isSpace with
      | '!' :: rest => (['!'], rest)
      | rest => ([], rest)
    if opening.isEmpty && !rest.head?.any isTagChar then none
    else
      let (meaning, behind) ← addressed? isAddressChar rest
      if endsWord behind then
        return (.handle (String.ofList handle) (String.ofList (opening ++ meaning)), behind)
      else none
  | _ => none

/-- A directive without the percent sign at its front, and what stands behind its line. -/
def directive? (chars : List Char) : Option (Directive × List Char) := do
  let name := chars.takeWhile isNameChar
  let rest := chars.dropWhile isNameChar
  if name.isEmpty || !endsWord rest then none
  else
    let (directive, behind) ←
      match String.ofList name with
      | "YAML" => version? (rest.dropWhile isSpace)
      | "TAG" => handle? (rest.dropWhile isSpace)
      | _ => some (.other, rest.dropWhile (· != '\n'))
    let behind ← behindSpaces? behind
    if endsLine behind then some (directive, behind) else none

end SelectCompiler.Yaml
