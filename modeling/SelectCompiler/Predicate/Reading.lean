import SelectCompiler.Predicate.Basic

/-!
Filters read from loosely shaped JSON. Two spellings of a group are understood beside the canonical
one: an object in which one of four words holds the connective and the other entries are the
members, and an entry whose key is a connective. What is left over is a label map, a list, a test
or raw text; anything that fits none of these is refused.
-/

namespace SelectCompiler.Predicate

/-- The words that hold the connective of a group whose members are the other entries. -/
def groupWords : List String := ["paren", "parenthesis", "parenthetical", "sub"]

def connectiveKeys : List String := ["conj", "connective"]

def comparatorKeys : List String := ["comp", "comparator"]

def hintKeys : List String := ["type", "type_hint"]

def childrenKeys : List String := ["children", "group"]

/-- Whether the key holds the members of a group, in any case. -/
def isChildrenKey (key : String) : Bool :=
  childrenKeys.contains key.toLower

/-- The entries of a group that are not its members. -/
def isGroupSetting (key : String) : Bool :=
  groupWords.contains key || connectiveKeys.contains key

/-- What a key says about the entry it stands before. -/
inductive EntryRole where
  | leafOnly
  | joined (connective : Connective)
  | label

def EntryRole.ofKey (key : String) : EntryRole :=
  if key = "value" ∨ comparatorKeys.contains key ∨ hintKeys.contains key
      ∨ connectiveKeys.contains key then
    .leafOnly
  else
    match Connective.ofToken? key with
    | some connective => .joined connective
    | none => .label

/-- Whether an object with this single entry stands for what the entry holds. -/
def isWrapper (key : String) (item : Json) : Bool :=
  match EntryRole.ofKey key with
  | .leafOnly => false
  | .joined _ => true
  | .label => item.isStructured

/-- The text under a key, or the fault of its not being text. -/
def textAt (key : String) : Json → Except Error String
  | .string text => .ok text
  | found => .error (.malformedPredicate (.keyNotString key found))

/-- The value under the first of the keys that is there. -/
def firstOf (keys : List String) (members : Json.Members) : Option Json :=
  keys.findSome? members.get?

/-- The connective that an object names for itself. -/
def ownConnective (members : Json.Members) : Except Error Connective :=
  match firstOf connectiveKeys members with
  | some value => do Connective.ofToken (← textAt "conj" value)
  | none => .ok .and

/-- The value of a test: null is none, and a list or an object is refused. -/
def ownValue (field : String) (members : Json.Members) : Except Error (Option Json) :=
  match members.get? "value" with
  | none | some .null => .ok none
  | some value =>
    if value.isStructured then .error (.malformedPredicate (.structuredValue field))
    else .ok (some value)

/-- The test that an object with a field describes. Without a comparator it is equality, and then
there must be a value. -/
def ownCondition (defaultHint : TypeHint) (field : Json) (members : Json.Members)
    (connective : Connective) : Except Error Condition := do
  let field ← textAt "field" field
  let comparator ← (firstOf comparatorKeys members).mapM (textAt "comp")
  let value ← ownValue field members
  if value.isNone && comparator.isNone then
    throw (.malformedPredicate (.valueOrComparatorRequired field))
  let hint ← (firstOf hintKeys members).mapM (textAt "type")
  let hint := (hint.map TypeHint.ofName).getD defaultHint
  return ⟨field, comparator.getD "=", value, hint, connective⟩

/-- What an object describes by itself, its members apart. -/
inductive Shape where
  | labelled (connective : Connective)
  | children (connective : Connective)
  | leaf (condition : Condition)
  | raw (sql : String) (connective : Connective)

/-- The shape of an object, if one of its keys gives it one. The last of the group words wins over
everything else, then come the keys for members, for a field and for raw text. -/
def Shape.ofMembers? (defaultHint : TypeHint) (members : Json.Members) :
    Option (Except Error Shape) :=
  match members.reverse.find? fun member => groupWords.contains member.1 with
  | some (key, value) => some do
    return .labelled (← Connective.ofToken (← textAt key value))
  | none =>
    if members.any fun member => isChildrenKey member.1 then some do
      return .children (← ownConnective members)
    else
      match members.get? "field", members.get? "sql" with
      | some field, _ => some do
        return .leaf (← ownCondition defaultHint field members (← ownConnective members))
      | none, some sql => some do
        let connective ← ownConnective members
        return .raw (← textAt "sql" sql) connective
      | none, none => none

/-- The predicate of a shape, given how to read labelled members and the members under a key. -/
def Shape.build (labelled children : Unit → Except Error PredicateTree) :
    Shape → Except Error Predicate
  | .labelled connective => return .group connective (← labelled ())
  | .children connective => return .group connective (← children ())
  | .leaf condition => return .leaf condition
  | .raw sql connective => return .raw sql connective

/-- The predicate of a keyed entry, given how to read the entry as a group body and as a node. -/
def buildEntry (key : String) (item : Json) (body : Unit → Except Error PredicateTree)
    (node : Unit → Except Error Predicate) : Except Error Predicate :=
  match EntryRole.ofKey key with
  | .leafOnly => .error (.malformedPredicate (.orphanEntry key item))
  | .joined connective => return .group connective (← body ())
  | .label => node ()

mutual
/-- One predicate. A list or an object of one entry stands for what it holds. -/
def readNode (defaultHint : TypeHint) : Json → Except Error Predicate
  | .string sql => .ok (.raw sql .and)
  | .array [item] => readNode defaultHint item
  | .array items => .error (.malformedPredicate (.unrecognizedStructure (.array items)))
  | .object members =>
    match Shape.ofMembers? defaultHint members with
    | some shape => do
      (← shape).build (fun _ => readLabelled defaultHint members)
        (fun _ => readChildren defaultHint members)
    | none =>
      match members with
      | [(key, item)] =>
        if isWrapper key item then
          buildEntry key item (fun _ => readBody defaultHint item)
            (fun _ => readNode defaultHint item)
        else .error (.malformedPredicate (.fieldRequired (.object members)))
      | _ => .error (.malformedPredicate (.unrecognizedStructure (.object members)))
  | found => .error (.malformedPredicate (.notPredicate found))

/-- The members of a group: a list, a label map, or a predicate alone. -/
def readBody (defaultHint : TypeHint) : Json → Except Error PredicateTree
  | .string sql => .ok [.raw sql .and]
  | .array items => readItems defaultHint items
  | .object members =>
    match Shape.ofMembers? defaultHint members with
    | some shape => do
      let node ← (← shape).build (fun _ => readLabelled defaultHint members)
        (fun _ => readChildren defaultHint members)
      return [node]
    | none => readEntries defaultHint members
  | found => .error (.malformedPredicate (.notGroupBody found))

def readItems (defaultHint : TypeHint) : List Json → Except Error PredicateTree
  | [] => .ok []
  | item :: rest => do
    let node ← readNode defaultHint item
    return node :: (← readItems defaultHint rest)

/-- The entries of a label map. -/
def readEntries (defaultHint : TypeHint) : List (String × Json) → Except Error PredicateTree
  | [] => .ok []
  | (key, item) :: rest => do
    let node ← buildEntry key item (fun _ => readBody defaultHint item)
      (fun _ => readNode defaultHint item)
    return node :: (← readEntries defaultHint rest)

/-- The entries of a group beside the words that describe the group itself. -/
def readLabelled (defaultHint : TypeHint) : List (String × Json) → Except Error PredicateTree
  | [] => .ok []
  | (key, item) :: rest =>
    if isGroupSetting key then readLabelled defaultHint rest
    else do
      let node ← buildEntry key item (fun _ => readBody defaultHint item)
        (fun _ => readNode defaultHint item)
      return node :: (← readLabelled defaultHint rest)

/-- The members under the first key for members. -/
def readChildren (defaultHint : TypeHint) : List (String × Json) → Except Error PredicateTree
  | [] => .ok []
  | (key, item) :: rest =>
    if isChildrenKey key then readBody defaultHint item else readChildren defaultHint rest
end

end SelectCompiler.Predicate

namespace SelectCompiler

/-- The filter that a JSON value describes; null is the empty filter. Tests that name no type get
the default one. -/
def PredicateTree.read (defaultHint : TypeHint) : Json → Except Error PredicateTree
  | .null => .ok []
  | .bool value => .error (.malformedPredicate (.notPredicateList (.bool value)))
  | .number value => .error (.malformedPredicate (.notPredicateList (.number value)))
  | value => Predicate.readBody defaultHint value

end SelectCompiler
