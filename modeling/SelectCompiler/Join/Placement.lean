import SelectCompiler.Join.Chain
import SelectCompiler.Join.Qualifier

/-!
Where a join can go in a chain. A join waits until every other table that its condition mentions is
there, and until the chain has something to join to.
-/

namespace SelectCompiler

inductive Placement where
  /-- The pair starts the chain. -/
  | seed
  /-- A new step brings in this table. -/
  | introduce (table : TableRef)
  /-- Both tables are there; the condition goes to the link at this position. -/
  | attach (position : Nat)
  | wait
  deriving DecidableEq, Repr

namespace Chain

/-- The place of a join in a chain, given the keys of all tables that occur anywhere. -/
def place (chain : Chain) (known : List String) (join : Join) : Placement :=
  let dependencies := join.dependencies known
  let ready := dependencies.all chain.contains
  match join.left with
  | some left =>
    if chain.isEmpty then if dependencies.isEmpty then .seed else .wait
    else if !ready then .wait
    else
      match chain.contains left.key, chain.contains join.right.key with
      | true, true => .attach (chain.latest (left.key :: join.right.key :: dependencies))
      | true, false => .introduce join.right
      | false, true => .introduce left
      | false, false => .wait
  | none =>
    if chain.isEmpty || !ready then .wait
    else if chain.contains join.right.key then
      .attach (chain.latest (join.right.key :: dependencies))
    else .introduce join.right

/-- The chain after a join has been given its place. -/
def accept (chain : Chain) (join : Join) : Placement → Chain
  | .seed => (join.left.elim chain chain.pushTable).pushStep join join.right
  | .introduce table => chain.pushStep join table
  | .attach position => chain.attach position join.condition
  | .wait => chain

/-- The chain after a join has been put in without regard to what its condition mentions. -/
def force (chain : Chain) (join : Join) : Chain :=
  match join.left with
  | some left =>
    match chain.contains left.key, chain.contains join.right.key with
    | false, false => (chain.pushTable left).pushStep join join.right
    | true, false => chain.pushStep join join.right
    | false, true => chain.pushStep join left
    | true, true => chain.attach (chain.latest [left.key, join.right.key]) join.condition
  | none =>
    if chain.contains join.right.key then
      chain.attach (chain.latest [join.right.key]) join.condition
    else if chain.isEmpty then chain.push (.verbatim join.sql) join.right.key
    else chain.pushStep join join.right

end Chain

end SelectCompiler
