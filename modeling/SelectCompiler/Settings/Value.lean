import SelectCompiler.Binary64.Layout
import SelectCompiler.Binary64.Reading

/-!
Loosely typed setting values, and what each kind of setting makes of them.
-/

namespace SelectCompiler

inductive SettingValue where
  | bool (value : Bool)
  | integer (n : Int)
  | real (x : Binary64)
  | text (content : String)
  /-- A table without entries; no setting takes one, but one that has a value keeps it. -/
  | emptyTable
  /-- A list, any other table or nothing; no setting takes one. -/
  | unfit
  deriving DecidableEq, Repr

namespace SettingValue

/-- What a bare text stands for: a truth value in any case, a signed word, a number, or itself. -/
def ofText (content : String) : SettingValue :=
  match content.toLower with
  | "true" => bool true
  | "false" => bool false
  | _ =>
    match Text.signed? content, Binary64.ofText? content with
    | some n, _ => integer n
    | none, some x => real x
    | none, none => text content

/-- A switch: a truth value, a number other than zero, or one of four words for on and off. -/
def switch? : SettingValue → Option Bool
  | bool value => some value
  | integer n => some (n ≠ 0)
  | real x => some !x.isZero
  | text content =>
    match content.toLower with
    | "1" | "true" | "on" | "yes" => some true
    | "0" | "false" | "off" | "no" => some false
    | _ => none
  | emptyTable | unfit => none

/-- A number without a fraction rounded into the range of a word; what is no number counts as
zero. -/
def saturated (x : Binary64) : Nat :=
  if x.isNaN || x.isNegative then 0
  else if x.isInfinite then Text.wordSize - 1
  else min x.roundedMagnitude (Text.wordSize - 1)

/-- A word: a number that is not negative, the nearest word to a fraction, a truth value as one or
zero, or a text for either. -/
def word? : SettingValue → Option Nat
  | bool value => some (if value then 1 else 0)
  | integer n => if 0 ≤ n then some n.toNat else none
  | real x => some (saturated x)
  | text content =>
    match content.toLower with
    | "true" | "on" | "yes" => some 1
    | "false" | "off" | "no" => some 0
    | _ => Text.unsigned? content
  | emptyTable | unfit => none

/-- Numbers are positional whatever their size, and whole ones have no point. -/
def realLayout : Binary64.Layout where
  plainFrom := -400
  plainBelow := 400
  pointZero := false
  exponentSign := false
  tie := .up

/-- Any value that fits, as text. -/
def text? : SettingValue → Option String
  | bool value => some (if value then "true" else "false")
  | integer n => some (Text.decimal n)
  | real x => some (realLayout.write x)
  | text content => some content
  | emptyTable | unfit => none

end SettingValue

/-- Entries without those whose name comes again. -/
def latestEntries {α : Type} : List (String × α) → List (String × α)
  | [] => []
  | entry :: rest =>
    if rest.any (·.1 == entry.1) then latestEntries rest else entry :: latestEntries rest

end SelectCompiler
