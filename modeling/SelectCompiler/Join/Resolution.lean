import SelectCompiler.Join.Placement

/-!
Joins brought into an order in which every condition mentions only tables that came before it. The
joins wait in a line. The first is placed if it can be and goes to the back otherwise; one that has
waited more often than there are joins is forced in, or is an error when that is not wanted.
-/

namespace SelectCompiler

/-- A join in the line, with how often it has been sent back. -/
structure Waiting where
  join : Join
  postponed : Nat
  deriving DecidableEq, Repr

/-- What became of the first join in the line. -/
inductive Event where
  | placed (join : Join)
  | postponed (join : Join)
  | forced (join : Join)
  deriving DecidableEq, Repr

def Event.isPostponed : Event → Bool
  | postponed _ => true
  | _ => false

def Event.isForced : Event → Bool
  | forced _ => true
  | _ => false

/-- What a resolution goes by: whether forcing is an error, the keys of all tables, and how often
a join may be sent back before it is stuck. -/
structure Rules where
  strict : Bool
  known : List String
  budget : Nat

structure Progress where
  waiting : List Waiting
  chain : Chain
  history : List Event
  deriving DecidableEq

namespace Progress

/-- The steps that a line can take at most. -/
def remaining (rules : Rules) : List Waiting → Nat
  | [] => 0
  | entry :: rest => rules.budget + 1 - entry.postponed + 1 + remaining rules rest

theorem remaining_append (rules : Rules) (first second : List Waiting) :
    remaining rules (first ++ second) = remaining rules first + remaining rules second := by
  induction first with
  | nil => rw [List.nil_append, remaining, Nat.zero_add]
  | cons entry rest ih =>
    rw [List.cons_append, remaining, ih, remaining]
    omega

/-- Deal with the first join in the line. -/
def step (rules : Rules) (first : Waiting) (others : List Waiting) (now : Progress) :
    Except Error Progress :=
  match now.chain.place rules.known first.join with
  | .wait =>
    if first.postponed ≤ rules.budget then
      .ok ⟨others ++ [⟨first.join, first.postponed + 1⟩], now.chain,
        now.history ++ [.postponed first.join]⟩
    else if rules.strict then
      .error (.unresolvedJoin first.join.sql first.postponed)
    else
      .ok ⟨others, now.chain.force first.join, now.history ++ [.forced first.join]⟩
  | place => .ok ⟨others, now.chain.accept first.join place, now.history ++ [.placed first.join]⟩

theorem remaining_step {rules : Rules} {first : Waiting} {others : List Waiting}
    {now next : Progress} (stepped : step rules first others now = .ok next) :
    remaining rules next.waiting < remaining rules (first :: others) := by
  unfold step at stepped
  split at stepped
  · split at stepped
    · cases stepped
      simp only [remaining_append, remaining]
      omega
    · split at stepped
      · contradiction
      · cases stepped
        simp only [remaining]
        omega
  · cases stepped
    simp only [remaining]
    omega

/-- Go on until nobody waits. -/
def run (rules : Rules) (now : Progress) : Except Error Progress :=
  match _line : now.waiting with
  | [] => .ok now
  | first :: others =>
    match _stepped : step rules first others now with
    | .error fault => .error fault
    | .ok next => run rules next
termination_by remaining rules now.waiting
decreasing_by
  rw [_line]
  exact remaining_step _stepped

end Progress

/-- A chain in order, and how it came about. -/
structure Resolution where
  chain : Chain
  history : List Event
  deriving DecidableEq

namespace Resolution

def fromClause (resolution : Resolution) : String := resolution.chain.sql

/-- The keys of the tables in the order in which they entered the chain. -/
def tables (resolution : Resolution) : List String := resolution.chain.keys

def residual (resolution : Resolution) : List String := resolution.chain.residual

def postponements (resolution : Resolution) : Nat :=
  resolution.history.countP Event.isPostponed

def forced (resolution : Resolution) : Nat :=
  resolution.history.countP Event.isForced

end Resolution

/-- The keys of all tables that an anchor or a join names. -/
def knownKeys (anchors : List TableRef) (joins : List Join) : List String :=
  (anchors ++ joins.flatMap Join.tables).map TableRef.key

/-- The chain of the plain tables alone. -/
def Chain.ofTables (anchors : List TableRef) : Chain :=
  anchors.foldl Chain.pushTable .empty

/-- The chain that starts with the anchors, holds all joins in order and ends with the raw texts. -/
def resolveJoins (strict : Bool) (anchors : List TableRef) (entries : List JoinEntry) :
    Except Error Resolution := do
  let joins := entries.filterMap JoinEntry.descriptor?
  let rules : Rules := ⟨strict, knownKeys anchors joins, joins.length⟩
  let done ← Progress.run rules ⟨joins.map (⟨·, 0⟩), .ofTables anchors, []⟩
  let raws := (entries.filterMap JoinEntry.raw?).map Text.trim
  return ⟨raws.foldl Chain.pushVerbatim done.chain, done.history⟩

end SelectCompiler
