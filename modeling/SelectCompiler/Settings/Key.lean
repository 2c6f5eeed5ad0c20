import SelectCompiler.Settings.Value

/-!
The settings that entries are for. The name of an entry may go on, by a point and a name or by an
index in brackets, to something inside a setting; since no setting has an inside, such an entry
leaves the setting with a value that it does not take.
-/

namespace SelectCompiler.SettingKey

/-- Letters, digits, spaces, underscores and dashes, all ASCII. -/
def isNameChar (c : Char) : Bool := c.isAlphanum || c == ' ' || c == '_' || c == '-'

/-- The number of an index, with spaces around it and perhaps a minus sign. -/
def isIndex (chars : List Char) : Bool :=
  let isSpace (c : Char) : Bool := c == ' ' || c == '\t'
  let number := ((chars.dropWhile isSpace).reverse.dropWhile isSpace).reverse
  match number with
  | '+' :: _ => false
  | _ => (Text.signed? (String.ofList number)).isSome

/-- Whether characters are nothing but names behind points and indices in brackets. -/
def isInside (chars : List Char) : Bool :=
  match chars with
  | [] => true
  | '.' :: rest =>
    !(rest.takeWhile isNameChar).isEmpty && isInside (rest.dropWhile isNameChar)
  | '[' :: rest =>
    isIndex (rest.takeWhile (· != ']')) && rest.contains ']'
      && isInside ((rest.dropWhile (· != ']')).drop 1)
  | _ => false
termination_by chars.length
decreasing_by
  · have := (List.dropWhile_sublist isNameChar (l := rest)).length_le
    simp
    omega
  · have := (List.dropWhile_sublist (· != ']') (l := rest)).length_le
    simp
    omega

/-- The name before what leads inside a setting, when a key is of that form. -/
def outer? (key : String) : Option String :=
  let name := key.toList.takeWhile isNameChar
  let inside := key.toList.dropWhile isNameChar
  if name.isEmpty || inside.isEmpty || !isInside inside then none
  else some (String.ofList name)

/-- The setting that an entry is for and the value it gives to it. Names of settings count in any
case. -/
def resolve (entry : String × SettingValue) : String × SettingValue :=
  match outer? entry.1 with
  | some name => (name.toLower, .unfit)
  | none => (entry.1.toLower, entry.2)

end SelectCompiler.SettingKey
