import SelectCompiler.Error
import SelectCompiler.Join.Table

/-!
Join descriptors and the JSON entries that describe them.
-/

namespace SelectCompiler

/-- A join of one table to what is there, or of a pair of tables when the left one is named. -/
structure Join where
  kind : JoinKind
  left : Option TableRef
  right : TableRef
  condition : String
  deriving DecidableEq, Repr

namespace Join

/-- A join of one table. -/
def unary (kind : JoinKind) (table condition : String) : Join :=
  ⟨kind, none, .ofText table, Text.trim condition⟩

/-- The same join as a pair with the given left table. -/
def fromTable (join : Join) (table : String) : Join :=
  { join with left := some (.ofText table) }

def isBinary (join : Join) : Bool := join.left.isSome

/-- The tables that the join names, left before right. -/
def tables (join : Join) : List TableRef := join.left.toList ++ [join.right]

/-- The join as it was written, its tables in their own order. -/
def sql (join : Join) : String :=
  (join.left.elim "" fun left => left.sql ++ " ")
    ++ join.kind.sql ++ " " ++ join.right.sql
    ++ if join.condition.isEmpty then "" else " ON " ++ join.condition

end Join

/-- A descriptor to be put in order, or text that is appended as it is. -/
inductive JoinEntry where
  | descriptor (join : Join)
  | raw (sql : String)
  deriving DecidableEq, Repr

namespace JoinEntry

def descriptor? : JoinEntry → Option Join
  | descriptor join => some join
  | raw _ => none

def raw? : JoinEntry → Option String
  | descriptor _ => none
  | raw sql => some sql

/-- An optional text of a descriptor; null is none. -/
def textAt? (members : Json.Members) (key : String) : Except Error (Option String) :=
  match members.get? key with
  | none | some .null => .ok none
  | some (.string text) => .ok (some text)
  | some found => .error (.unsupportedJoin (.notString key found))

/-- The join entry that a JSON value describes. The keyword stands under one of two keys. -/
def read : Json → Except Error JoinEntry
  | .string sql => .ok (.raw sql)
  | .object members =>
    match Json.Members.get? members "right" with
    | some (.string right) => do
      let keyword ← textAt? members "join"
      let alternative ← textAt? members "join_kind"
      let left ← textAt? members "left"
      let condition ← textAt? members "on"
      return .descriptor {
        kind := ((keyword <|> alternative).map JoinKind.ofKeyword).getD .inner
        left := left.map TableRef.ofText
        right := .ofText right
        condition := Text.trim (condition.getD "") }
    | _ => .error (.unsupportedJoin (.rightRequired (.object members)))
  | found => .error (.unsupportedJoin (.notJoinEntry found))

end JoinEntry

end SelectCompiler
