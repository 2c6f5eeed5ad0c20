import SelectCompiler.Join.Basic

/-!
The chain of a FROM clause: plain tables, join steps and verbatim text in order, with a record of
which link introduced which table.
-/

namespace SelectCompiler

inductive Link where
  | table (sql : String)
  | step (kind : JoinKind) (table : String) (conditions : List String)
  | verbatim (sql : String)
  deriving DecidableEq, Repr

namespace Link

/-- Conditions of a step; several stand in parentheses of their own. -/
def conditionText : List String → String
  | [] => ""
  | [condition] => " ON " ++ condition
  | conditions => " ON " ++ " AND ".intercalate (conditions.map fun text => "(" ++ text ++ ")")

def sql : Link → String
  | .table text => text
  | .step kind joined conditions => kind.sql ++ " " ++ joined ++ conditionText conditions
  | .verbatim text => text

/-- What separates a link from the text before it. -/
def separator : Link → String
  | .table _ => ", "
  | _ => " "

end Link

structure Chain where
  links : List Link
  /-- The key of each table with the position of its link, in order of arrival. -/
  introduced : List (String × Nat)
  /-- Conditions that no step can carry. -/
  residual : List String
  deriving DecidableEq, Repr

namespace Chain

def empty : Chain := ⟨[], [], []⟩

def isEmpty (chain : Chain) : Bool := chain.links.isEmpty

def keys (chain : Chain) : List String := chain.introduced.map (·.1)

def contains (chain : Chain) (key : String) : Bool := chain.keys.contains key

/-- The position of the link that introduced a table. -/
def position? (chain : Chain) (key : String) : Option Nat := chain.introduced.lookup key

/-- The latest position among the given keys that are there. -/
def latest (chain : Chain) (keys : List String) : Nat :=
  (keys.filterMap chain.position?).foldl max 0

/-- A new link at the end that introduces a table, unless the table was there before. -/
def push (chain : Chain) (link : Link) (key : String) : Chain :=
  { chain with
    links := chain.links ++ [link]
    introduced :=
      if chain.contains key then chain.introduced
      else chain.introduced ++ [(key, chain.links.length)] }

/-- A plain table, if it is not there yet. -/
def pushTable (chain : Chain) (table : TableRef) : Chain :=
  if chain.contains table.key then chain else chain.push (.table table.sql) table.key

/-- A step of a join that brings in the given one of its tables. -/
def pushStep (chain : Chain) (join : Join) (table : TableRef) : Chain :=
  let conditions := if join.condition.isEmpty then [] else [join.condition]
  chain.push (.step join.kind table.sql conditions) table.key

/-- Text that introduces no table. -/
def pushVerbatim (chain : Chain) (sql : String) : Chain :=
  { chain with links := chain.links ++ [.verbatim sql] }

/-- A further condition at the given link; what is no step cannot carry it. -/
def attach (chain : Chain) (position : Nat) (condition : String) : Chain :=
  if condition.isEmpty then chain
  else
    match chain.links[position]? with
    | some (.step kind table conditions) =>
      let link := .step kind table (conditions ++ [condition])
      { chain with links := chain.links.set position link }
    | _ => { chain with residual := chain.residual ++ [condition] }

/-- The text after FROM. -/
def sql (chain : Chain) : String :=
  chain.links.foldl
    (fun text link => text ++ (if text.isEmpty then "" else link.separator) ++ link.sql) ""

end Chain

end SelectCompiler
