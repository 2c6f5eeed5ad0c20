import SelectCompiler.Proofs.Join.Account
import SelectCompiler.Proofs.Join.Mentions

/-!
Chains whose tables have no names. All tables are one to such a chain: once it has begun, with the
first plain table or with the join that opens it, every other join finds its table there and brings
in nothing.
-/

namespace SelectCompiler

/-- The links that a join brings in if it is the first one of a chain. -/
def Join.openingLinks (join : Join) : List Link :=
  match join.left with
  | none => [.verbatim join.sql]
  | some left =>
    [.table left.sql,
      .step join.kind join.right.sql (if join.condition.isEmpty then [] else [join.condition])]

/-- The join that opens a chain for which there is no plain table, if all tables are blank: the
first pair, or the first join if there is none. -/
def opening? (joins : List Join) : Option Join :=
  (joins.find? Join.isBinary).or joins.head?

theorem find?_isBinary_eq_none {joins : List Join}
    (single : ∀ join ∈ joins, join.isBinary = false) : joins.find? Join.isBinary = none := by
  rw [List.find?_eq_none]
  intro join member
  rw [single join member]
  exact Bool.false_ne_true

theorem mem_of_opening? {joins : List Join} {join : Join} (found : opening? joins = some join) :
    join ∈ joins := by
  rcases Option.or_eq_some_iff.mp found with pair | ⟨_, first⟩
  · exact List.mem_of_find?_eq_some pair
  · exact List.mem_of_head? first

/-- No table has a name, so that all have the same key. -/
def Nameless (tables : List TableRef) : Prop :=
  ∀ table ∈ tables, table.words = []

theorem Nameless.key {tables : List TableRef} {table : TableRef} (nameless : Nameless tables)
    (member : table ∈ tables) : table.key = "" := by
  rw [TableRef.key, TableRef.alias?, TableRef.name, nameless table member]
  rfl

theorem Nameless.sql {tables : List TableRef} {table : TableRef} (nameless : Nameless tables)
    (member : table ∈ tables) : table.sql = "" := by
  rw [TableRef.sql, nameless table member]
  rfl

namespace Chain

variable {chain next : Chain} {links : List Link} {join : Join} {event : Event}
  {known : List String}

/-- The chain has these links and the one table without a name, which no step carries. -/
structure Rests (links : List Link) (chain : Chain) : Prop where
  same : chain.links = links
  introduced : chain.introduced = [("", 0)]
  noStep : ∀ kind joined conditions, links.head? ≠ some (.step kind joined conditions)

namespace Rests

theorem keys (rests : chain.Rests links) : chain.keys = [""] := by
  rw [Chain.keys, rests.introduced]
  rfl

theorem latest (rests : chain.Rests links) (keys : List String) : chain.latest keys = 0 := by
  have zero : ∀ position ∈ keys.filterMap chain.position?, position = 0 := by
    intro position member
    obtain ⟨key, _, found⟩ := List.mem_filterMap.mp member
    obtain ⟨_, _, split, _⟩ := List.lookup_eq_some_iff.mp found
    rw [rests.introduced] at split
    have listed : (key, position) ∈ [("", 0)] := by simp [split]
    exact congrArg Prod.snd (List.mem_singleton.mp listed)
  rw [Chain.latest]
  generalize keys.filterMap chain.position? = positions at zero
  induction positions with
  | nil => rfl
  | cons position rest ih =>
    obtain ⟨first, others⟩ := List.forall_mem_cons.mp zero
    rw [List.foldl_cons, first, Nat.max_self]
    exact ih others

/-- What is settled afterwards brings in nothing. -/
theorem settles (rests : chain.Rests links) (nameless : Nameless join.tables)
    (changed : chain.Settles known join event next) : next.Rests links := by
  have present {table : TableRef} (own : table ∈ join.tables) : table.key ∈ chain.keys := by
    rw [rests.keys, nameless.key own]
    exact List.mem_cons_self
  have right : join.right ∈ join.tables := by simp [Join.tables]
  cases changed with
  | pair _ _ absent => exact absurd (present right) absent
  | step own absent _ => exact absurd (present own) absent
  | opening _ _ _ absent => exact absurd (present right) absent
  | merge =>
    rw [rests.latest]
    obtain same | ⟨kind, joined, conditions, found, _⟩ | same := attach_cases chain 0 join.condition
    · rwa [same]
    · rw [← List.head?_eq_getElem?, rests.same] at found
      exact absurd found (rests.noStep kind joined conditions)
    · rw [same]
      exact ⟨rests.same, rests.introduced, rests.noStep⟩

end Rests

theorem dependencies_eq_nil {known : List String} (empty : ∀ key ∈ known, key = "")
    (nameless : Nameless join.tables) : join.dependencies known = [] := by
  rw [List.eq_nil_iff_forall_not_mem]
  intro key member
  obtain ⟨mentioned, foreign⟩ := Join.mem_dependencies_iff.mp member
  have own : join.right ∈ join.tables := by simp [Join.tables]
  rw [empty key (Join.mem_qualifiers_iff.mp mentioned).1, ← nameless.key own] at foreign
  exact foreign (List.mem_map.mpr ⟨join.right, own, rfl⟩)

/-- Only a pair finds a place in an empty chain. -/
theorem place_empty (free : join.dependencies known = []) :
    Chain.empty.place known join = if join.isBinary = true then .seed else .wait := by
  have empty : Chain.empty.isEmpty = true := rfl
  cases names : join.left with
  | none => rw [place_unary names, if_pos (.inl empty), Join.isBinary, names]; rfl
  | some left => rw [place_pair names, if_pos empty, if_pos free, Join.isBinary, names]; rfl

theorem rests_pair {left : TableRef} (names : join.left = some left)
    (nameless : Nameless join.tables) :
    ((Chain.empty.pushTable left).pushStep join join.right).Rests join.openingLinks := by
  have first : left.key = "" := nameless.key (by simp [Join.tables, names])
  have second : join.right.key = "" := nameless.key (by simp [Join.tables])
  have pushed : Chain.empty.pushTable left = ⟨[.table left.sql], [(left.key, 0)], []⟩ := rfl
  have there : join.right.key ∈ (Chain.empty.pushTable left).keys := by
    rw [pushed, second, ← first]
    exact List.mem_cons_self
  rw [pushStep, push_of_mem there, pushed, Join.openingLinks, names]
  exact ⟨rfl, congrArg (fun key => [(key, 0)]) first, by simp⟩

/-- A join opens the chain alike whether it is forced or, as only a pair can be, placed. -/
theorem rests_force (nameless : Nameless join.tables) :
    (Chain.empty.force join).Rests join.openingLinks := by
  cases names : join.left with
  | none =>
    have only : join.right.key = "" := nameless.key (by simp [Join.tables])
    have forced : Chain.empty.force join =
        ⟨[.verbatim join.sql], [(join.right.key, 0)], []⟩ := by
      rw [force, names]
      rfl
    rw [forced, Join.openingLinks, names]
    exact ⟨rfl, congrArg (fun key => [(key, 0)]) only, by simp⟩
  | some left =>
    have forced : Chain.empty.force join =
        (Chain.empty.pushTable left).pushStep join join.right := by
      rw [force, names]
      rfl
    rw [forced]
    exact rests_pair names nameless

theorem rests_seed (pair : join.isBinary = true) (nameless : Nameless join.tables) :
    (Chain.empty.accept join .seed).Rests join.openingLinks := by
  obtain ⟨left, names⟩ := Option.isSome_iff_exists.mp pair
  rw [accept, names]
  exact rests_pair names nameless

/-- Tables that are there do not come in again. -/
theorem foldl_pushTable_of_mem {tables : List TableRef}
    (there : ∀ table ∈ tables, table.key ∈ chain.keys) :
    tables.foldl Chain.pushTable chain = chain := by
  induction tables with
  | nil => rfl
  | cons table rest ih =>
    obtain ⟨here, later⟩ := List.forall_mem_cons.mp there
    rw [List.foldl_cons, pushTable, if_pos (contains_iff.mpr here), ih later]

theorem rests_ofTables {anchors : List TableRef} (filled : anchors ≠ [])
    (nameless : Nameless anchors) : (Chain.ofTables anchors).Rests [.table ""] := by
  obtain ⟨table, others, rfl⟩ := List.exists_cons_of_ne_nil filled
  have key : table.key = "" := nameless.key List.mem_cons_self
  have sql : table.sql = "" := nameless.sql List.mem_cons_self
  have first : (Chain.empty.pushTable table).Rests [.table ""] := by
    have pushed : Chain.empty.pushTable table = ⟨[.table table.sql], [(table.key, 0)], []⟩ := rfl
    rw [pushed, key, sql]
    exact ⟨rfl, rfl, by simp⟩
  have there : ∀ other ∈ others, other.key ∈ (Chain.empty.pushTable table).keys := by
    intro other member
    rw [first.keys, nameless.key (List.mem_cons_of_mem _ member)]
    exact List.mem_cons_self
  rw [ofTables, List.foldl_cons, foldl_pushTable_of_mem there]
  exact first

end Chain

namespace Progress

variable {rules : Rules} {first : Waiting} {others : List Waiting} {now next done : Progress}
  {anchors : List TableRef} {joins earlier later : List Join} {join : Join} {budget count : Nat}
  {links : List Link}

/-- The account of a run whose chain rests. -/
structure Resting (links : List Link) (anchors : List TableRef) (joins : List Join)
    (now : Progress) : Prop where
  accounted : now.Accounted anchors joins
  chain : now.chain.Rests links

theorem Resting.step (nameless : ∀ join ∈ joins, Nameless join.tables)
    (line : now.waiting = first :: others) (resting : now.Resting links anchors joins)
    (stepped : step rules first others now = .ok next) : next.Resting links anchors joins := by
  refine ⟨resting.accounted.step line stepped, ?_⟩
  obtain ⟨_, _, rfl⟩ | ⟨event, chain, _, changed, rfl⟩ :=
    step_cases resting.accounted.inRange stepped
  · exact resting.chain
  · exact resting.chain.settles (nameless _ (resting.accounted.listed line)) changed

/-- The line goes round in front of an empty chain. The earlier joins have been sent back once more
than the others, as none of them is a pair, and nobody is sent back twice if there is a pair. -/
structure Turns (budget : Nat) (joins earlier later : List Join) (count : Nat) : Prop where
  split : joins = earlier ++ later
  single : ∀ join ∈ earlier, join.isBinary = false
  again : 0 < count → ∀ join ∈ joins, join.isBinary = false
  early : count ≤ budget ∨ earlier = []

namespace Turns

/-- The line in the middle of a turn. -/
def line (earlier later : List Join) (count : Nat) : List Waiting :=
  later.map (⟨·, count⟩) ++ earlier.map (⟨·, count + 1⟩)

theorem start (budget : Nat) (joins : List Join) : Turns budget joins [] joins 0 :=
  ⟨rfl, nofun, nofun, .inr rfl⟩

/-- Behind the last of the others another turn begins. -/
theorem exists_front (turns : Turns budget joins earlier later count)
    (waiting : line earlier later count = first :: others) :
    ∃ earlier later count, Turns budget joins earlier (first.join :: later) count ∧
      first = ⟨first.join, count⟩ ∧ others = line earlier later count := by
  cases later with
  | cons join rest =>
    rw [line, List.map_cons, List.cons_append] at waiting
    obtain ⟨rfl, rfl⟩ := List.cons.inj waiting
    exact ⟨earlier, rest, count, turns, rfl, rfl⟩
  | nil =>
    rw [line, List.map_nil, List.nil_append] at waiting
    obtain ⟨join, rest, rfl, rfl, rfl⟩ := List.map_eq_cons_iff.mp waiting
    have all : joins = join :: rest := by rw [turns.split, List.append_nil]
    refine ⟨[], rest, count + 1, ⟨all, nofun, ?_, .inr rfl⟩, rfl, ?_⟩
    · intro _
      rw [all]
      exact turns.single
    · rw [line, List.map_nil, List.append_nil]

/-- The first of the others is sent back if it is not a pair. -/
theorem postpone (turns : Turns budget joins earlier (join :: later) count)
    (single : join.isBinary = false) (early : count ≤ budget) :
    Turns budget joins (earlier ++ [join]) later count where
  split := by rw [turns.split, List.append_assoc, List.singleton_append]
  single := List.forall_mem_append.mpr ⟨turns.single, List.forall_mem_singleton.mpr single⟩
  again := turns.again
  early := .inl early

/-- A pair opens the chain when it comes first in the line. -/
theorem opening?_of_pair (turns : Turns budget joins earlier (join :: later) count)
    (pair : join.isBinary = true) : opening? joins = some join := by
  rw [opening?, turns.split, List.find?_append, find?_isBinary_eq_none turns.single,
    Option.none_or, List.find?_cons_of_pos pair, Option.some_or]

/-- If there is no pair the first join opens the chain, after enough turns. -/
theorem opening?_of_spent (turns : Turns budget joins earlier (join :: later) count)
    (spent : budget < count) : opening? joins = some join := by
  have none := find?_isBinary_eq_none (turns.again (Nat.zero_lt_of_lt spent))
  have first : earlier = [] := turns.early.resolve_left (Nat.not_le.mpr spent)
  rw [opening?, none, Option.none_or, turns.split, first, List.nil_append, List.head?_cons]

end Turns

/-- How a chain without plain tables comes about if all tables are blank: it stays empty until the
join that opens it is settled, and rests from there on. -/
inductive Opens (budget : Nat) (joins : List Join) : Progress → Prop where
  | turns {earlier later : List Join} {count : Nat} {history : List Event}
      (inTurn : Turns budget joins earlier later count) :
      Opens budget joins ⟨Turns.line earlier later count, .empty, history⟩
  | opened {now : Progress} {join : Join} (found : opening? joins = some join)
      (rests : now.chain.Rests join.openingLinks) : Opens budget joins now

/-- The account of such a run. -/
structure Opening (budget : Nat) (joins : List Join) (now : Progress) : Prop where
  accounted : now.Accounted [] joins
  opens : Opens budget joins now

theorem Opening.start (budget : Nat) (joins : List Join) :
    Opening budget joins (start [] joins) := by
  have line : Turns.line [] joins 0 = joins.map (⟨·, 0⟩) := List.append_nil _
  refine ⟨.start [] joins, ?_⟩
  rw [Progress.start, ← line]
  exact .turns (.start budget joins)

theorem Opening.step (free : ∀ join ∈ joins, join.dependencies rules.known = [])
    (nameless : ∀ join ∈ joins, Nameless join.tables) (line : now.waiting = first :: others)
    (opening : Opening rules.budget joins now) (stepped : step rules first others now = .ok next) :
    Opening rules.budget joins next := by
  have listed := opening.accounted.listed line
  refine ⟨opening.accounted.step line stepped, ?_⟩
  cases opening.opens with
  | @opened _ join found rests =>
    have resting : now.Resting join.openingLinks [] joins := ⟨opening.accounted, rests⟩
    exact .opened found (resting.step nameless line stepped).chain
  | turns inTurn =>
    obtain ⟨earlier, later, count, inTurn, counted, rfl⟩ := inTurn.exists_front line
    have place := Chain.place_empty (free _ listed)
    have spent : first.postponed = count := congrArg Waiting.postponed counted
    -- In front of an empty chain only a pair is placed, so whoever is sent back or forced is none.
    rcases step_eq_ok_iff.mp stepped with
      ⟨waits, early, rfl⟩ | ⟨waits, late, _, rfl⟩ | ⟨placed, rfl⟩
    · have single : first.join.isBinary = false := by
        by_contra pair
        rw [place, if_pos (eq_true_of_ne_false pair)] at waits
        contradiction
      have moved : Turns.line earlier later count ++ [⟨first.join, first.postponed + 1⟩] =
          Turns.line (earlier ++ [first.join]) later count := by
        rw [spent, Turns.line, Turns.line, List.map_append, List.append_assoc]
        rfl
      rw [moved]
      exact .turns (inTurn.postpone single (spent ▸ early))
    · exact .opened (inTurn.opening?_of_spent (spent ▸ late))
        (Chain.rests_force (nameless _ listed))
    · have pair : first.join.isBinary = true := by
        by_contra single
        exact placed (by rw [place, if_neg single])
      rw [place, if_pos pair]
      exact .opened (inTurn.opening?_of_pair pair) (Chain.rests_seed pair (nameless _ listed))

end Progress

end SelectCompiler
