import Mathlib.Control.Monad.Basic
import SelectCompiler.Proofs.Join.Placement
import SelectCompiler.Proofs.Join.Run

/-!
Dependency order of a chain. As long as no join is forced, every known table that a condition
mentions was brought in by the link that carries the condition or by one before it, also where the
condition came to that link later.
-/

namespace SelectCompiler

namespace Chain

/-- The link at this position brought in the table with this key, one of the given tables. -/
def Introduces (tables : List TableRef) (chain : Chain) (key : String) (position : Nat) : Prop :=
  chain.position? key = some position ∧
    ∃ table ∈ tables, table.key = key ∧ chain.table? position = some table.sql

/-- Every known table that the condition mentions was brought in at this position or before. -/
def Grounds (tables : List TableRef) (chain : Chain) (position : Nat) (condition : String) : Prop :=
  ∀ key ∈ Join.qualifiers (tables.map TableRef.key) condition,
    ∃ earlier ≤ position, chain.Introduces tables key earlier

/-- The recorded positions are those of the links that brought the tables in, and every condition
stands where all that it mentions is there. -/
structure Ordered (tables : List TableRef) (chain : Chain) : Prop where
  recorded : ∀ key ∈ chain.keys, ∃ position, chain.Introduces tables key position
  grounded : ∀ position, ∀ condition ∈ chain.conditions position,
    chain.Grounds tables position condition

variable {tables : List TableRef} {chain : Chain} {link : Link} {join : Join} {table : TableRef}
  {key other condition sql : String} {position place : Nat}

theorem Introduces.lt (introduces : chain.Introduces tables key position) :
    position < chain.links.length := by
  obtain ⟨_, table, _, _, brings⟩ := introduces
  obtain ⟨link, found, _⟩ := Option.bind_eq_some_iff.mp brings
  exact (List.getElem?_eq_some_iff.mp found).1

theorem Introduces.push (introduces : chain.Introduces tables key position) :
    (chain.push link other).Introduces tables key position := by
  have earlier := introduces.lt
  obtain ⟨found, table, member, same, brings⟩ := introduces
  refine ⟨position?_push_of_some found, table, member, same, ?_⟩
  rw [table?_push, if_neg (Nat.ne_of_lt earlier), brings]

theorem Introduces.attach (introduces : chain.Introduces tables key position) :
    (chain.attach place condition).Introduces tables key position := by
  unfold Introduces
  rw [position?_attach, table?_attach]
  exact introduces

theorem Introduces.pushVerbatim (introduces : chain.Introduces tables key position) :
    (chain.pushVerbatim sql).Introduces tables key position := by
  unfold Introduces
  rw [position?_pushVerbatim, table?_pushVerbatim]
  exact introduces

theorem Grounds.mono {next : Chain} (grounds : chain.Grounds tables position condition)
    (kept : ∀ {key place}, chain.Introduces tables key place → next.Introduces tables key place) :
    next.Grounds tables position condition := by
  intro key mentioned
  obtain ⟨earlier, before, introduces⟩ := grounds key mentioned
  exact ⟨earlier, before, kept introduces⟩

namespace Ordered

theorem empty : Ordered tables .empty where
  recorded _ member := nomatch member
  grounded _ _ member := nomatch member

/-- After a push every table of the chain, the new one included, is at the new link or before. -/
theorem introduced_push (ordered : chain.Ordered tables)
    (brings : key ∉ chain.keys →
      ∃ table ∈ tables, table.key = key ∧ link.table? = some table.sql)
    (present : other ∈ chain.keys ∨ other = key) :
    ∃ earlier ≤ chain.links.length, (chain.push link key).Introduces tables other earlier := by
  by_cases old : other ∈ chain.keys
  · obtain ⟨earlier, introduces⟩ := ordered.recorded other old
    exact ⟨earlier, Nat.le_of_lt introduces.lt, introduces.push⟩
  · obtain rfl := present.resolve_left old
    obtain ⟨table, member, same, named⟩ := brings old
    refine ⟨chain.links.length, Nat.le_refl _, position?_push_self old, table, member, same, ?_⟩
    rw [table?_push, if_pos rfl, named]

theorem push (ordered : chain.Ordered tables)
    (brings : key ∉ chain.keys →
      ∃ table ∈ tables, table.key = key ∧ link.table? = some table.sql)
    (ready : ∀ condition ∈ link.conditions,
      ∀ other ∈ Join.qualifiers (tables.map TableRef.key) condition,
        other ∈ chain.keys ∨ other = key) :
    (chain.push link key).Ordered tables where
  recorded other member := by
    obtain ⟨earlier, _, introduces⟩ := ordered.introduced_push brings (mem_keys_push_iff.mp member)
    exact ⟨earlier, introduces⟩
  grounded position condition member := by
    obtain old | ⟨rfl, new⟩ := mem_conditions_push member
    · exact (ordered.grounded position condition old).mono Introduces.push
    · intro other mentioned
      exact ordered.introduced_push brings (ready condition new other mentioned)

theorem pushTable (ordered : chain.Ordered tables) (member : table ∈ tables) :
    (chain.pushTable table).Ordered tables := by
  unfold Chain.pushTable
  split
  · exact ordered
  · refine ordered.push (fun _ => ⟨table, member, rfl, rfl⟩) ?_
    intro condition carried
    contradiction

theorem pushStep (ordered : chain.Ordered tables) (member : table ∈ tables)
    (ready : ∀ other ∈ Join.qualifiers (tables.map TableRef.key) join.condition,
      other ∈ chain.keys ∨ other = table.key) :
    (chain.pushStep join table).Ordered tables := by
  refine ordered.push (fun _ => ⟨table, member, rfl, rfl⟩) ?_
  intro condition carried
  have only : condition = join.condition := by
    simp only [Link.conditions] at carried
    split at carried
    · contradiction
    · exact List.mem_singleton.mp carried
  rw [only]
  exact ready

theorem attach (ordered : chain.Ordered tables)
    (grounds : chain.Grounds tables position condition) :
    (chain.attach position condition).Ordered tables where
  recorded key member := by
    rw [keys_attach] at member
    obtain ⟨earlier, introduces⟩ := ordered.recorded key member
    exact ⟨earlier, introduces.attach⟩
  grounded place text member := by
    obtain old | ⟨rfl, rfl⟩ := mem_conditions_attach member
    · exact (ordered.grounded place text old).mono Introduces.attach
    · exact grounds.mono Introduces.attach

theorem pushVerbatim (ordered : chain.Ordered tables) :
    (chain.pushVerbatim sql).Ordered tables where
  recorded key member := by
    rw [keys_pushVerbatim] at member
    obtain ⟨earlier, introduces⟩ := ordered.recorded key member
    exact ⟨earlier, introduces.pushVerbatim⟩
  grounded position condition member := by
    rw [conditions_pushVerbatim] at member
    exact (ordered.grounded position condition member).mono Introduces.pushVerbatim

theorem ofTables {anchors : List TableRef} (known : ∀ table ∈ anchors, table ∈ tables) :
    (Chain.ofTables anchors).Ordered tables := by
  suffices ∀ chain : Chain, chain.Ordered tables →
      (anchors.foldl Chain.pushTable chain).Ordered tables from this .empty .empty
  induction anchors with
  | nil => exact fun _ ordered => ordered
  | cons table rest ih =>
    intro chain ordered
    exact ih (fun other member => known other (List.mem_cons_of_mem table member)) _
      (ordered.pushTable (known table List.mem_cons_self))

theorem foldl_pushVerbatim (ordered : chain.Ordered tables) (raws : List String) :
    (raws.foldl Chain.pushVerbatim chain).Ordered tables := by
  induction raws generalizing chain with
  | nil => exact ordered
  | cons sql rest ih => exact ih ordered.pushVerbatim

/-- A pair that starts a chain mentions no table but its own two. -/
theorem seed (ordered : chain.Ordered tables) (known : ∀ table ∈ join.tables, table ∈ tables)
    (found : chain.place (tables.map TableRef.key) join = .seed) :
    (chain.accept join .seed).Ordered tables := by
  obtain ⟨_, pair, alone⟩ := place_eq_seed_iff.mp found
  obtain ⟨left, names⟩ := Option.isSome_iff_exists.mp pair
  have both : join.tables = [left, join.right] := by
    rw [Join.tables, names]
    rfl
  rw [both] at known
  rw [accept, names]
  refine (ordered.pushTable (known left (by simp))).pushStep (known join.right (by simp)) ?_
  intro other mentioned
  obtain ⟨table, own, rfl⟩ | dependency := Join.own_or_dependency mentioned
  · rw [both, List.mem_cons, List.mem_singleton] at own
    obtain rfl | rfl := own
    · exact .inl (mem_keys_pushTable chain table)
    · exact .inr rfl
  · rw [alone] at dependency
    contradiction

/-- A table is brought in when all others that the condition mentions are there. -/
theorem introduce (ordered : chain.Ordered tables)
    (known : ∀ table ∈ join.tables, table ∈ tables)
    (found : chain.place (tables.map TableRef.key) join = .introduce table) :
    (chain.accept join (.introduce table)).Ordered tables := by
  obtain ⟨_, supports, member, _⟩ := place_eq_introduce_iff.mp found
  refine ordered.pushStep (known table member) ?_
  intro other mentioned
  obtain ⟨named, own, rfl⟩ | dependency := Join.own_or_dependency mentioned
  · exact mem_keys_of_introduce found own
  · exact .inl (supports other dependency)

/-- The latest of all tables that the condition mentions is where it is attached. -/
theorem attachLatest (ordered : chain.Ordered tables)
    (found : chain.place (tables.map TableRef.key) join = .attach position) :
    (chain.accept join (.attach position)).Ordered tables := by
  obtain ⟨_, supports, present, rfl⟩ := place_eq_attach_iff.mp found
  refine ordered.attach ?_
  intro other mentioned
  have listed :
      other ∈ join.tables.map TableRef.key ++ join.dependencies (tables.map TableRef.key) := by
    rw [List.mem_append, List.mem_map]
    exact Join.own_or_dependency mentioned
  have there : other ∈ chain.keys := by
    obtain ⟨table, own, rfl⟩ | dependency := Join.own_or_dependency mentioned
    · exact present table own
    · exact supports other dependency
  obtain ⟨earlier, introduces⟩ := ordered.recorded other there
  exact ⟨earlier, le_latest listed introduces.1, introduces⟩

theorem accept (ordered : chain.Ordered tables) (known : ∀ table ∈ join.tables, table ∈ tables) :
    (chain.accept join (chain.place (tables.map TableRef.key) join)).Ordered tables := by
  cases found : chain.place (tables.map TableRef.key) join with
  | seed => exact ordered.seed known found
  | introduce table => exact ordered.introduce known found
  | attach position => exact ordered.attachLatest found
  | wait => exact ordered

end Ordered

end Chain

namespace Progress

/-- While nothing has been forced the chain is in order, and only given tables are in the line. -/
structure Ordered (tables : List TableRef) (now : Progress) : Prop where
  named : ∀ entry ∈ now.waiting, ∀ table ∈ entry.join.tables, table ∈ tables
  chain : now.history.countP Event.isForced = 0 → now.chain.Ordered tables

variable {tables : List TableRef} {rules : Rules} {first : Waiting} {others : List Waiting}
  {now next : Progress}

theorem Ordered.step (known : rules.known = tables.map TableRef.key)
    (line : now.waiting = first :: others) (ordered : now.Ordered tables)
    (stepped : step rules first others now = .ok next) : next.Ordered tables := by
  have own := ordered.named first (by simp [line])
  have rest : ∀ entry ∈ others, ∀ table ∈ entry.join.tables, table ∈ tables :=
    fun entry member => ordered.named entry (by simp [line, member])
  obtain ⟨_, _, rfl⟩ | ⟨_, _, _, rfl⟩ | ⟨_, rfl⟩ := step_eq_ok_iff.mp stepped
  · refine ⟨?_, fun unforced => ordered.chain (by simpa [Event.isForced] using unforced)⟩
    intro entry member
    obtain waiting | back := List.mem_append.mp member
    · exact rest entry waiting
    · rw [List.mem_singleton.mp back]
      exact own
  · refine ⟨rest, fun unforced => ?_⟩
    simp [Event.isForced] at unforced
  · refine ⟨rest, fun unforced => ?_⟩
    rw [known]
    exact (ordered.chain (by simpa [Event.isForced] using unforced)).accept own

theorem Ordered.start (anchors : List TableRef) (joins : List Join) :
    (start anchors joins).Ordered (anchors ++ joins.flatMap Join.tables) where
  named entry member table own := by
    obtain ⟨join, given, rfl⟩ := List.mem_map.mp member
    exact List.mem_append_right _ (List.mem_flatMap.mpr ⟨join, given, own⟩)
  chain _ := .ofTables fun _ member => List.mem_append_left _ member

end Progress

/-- Without a forced join, every known table that a condition of a step mentions is brought in by
that step or by a link before it, whether the condition came with the step or was attached to it
later. -/
theorem resolveJoins_grounds {strict : Bool} {anchors : List TableRef} {entries : List JoinEntry}
    {resolution : Resolution} {kind : JoinKind} {table : String} {conditions : List String}
    {position : Nat} (resolved : resolveJoins strict anchors entries = .ok resolution)
    (unforced : resolution.forced = 0)
    (found : resolution.chain.links[position]? = some (.step kind table conditions)) :
    ∀ condition ∈ conditions,
      ∀ key ∈ Join.qualifiers
          (knownKeys anchors (entries.filterMap JoinEntry.descriptor?)) condition,
        ∃ earlier ≤ position,
          resolution.chain.Introduces
            (anchors ++ (entries.filterMap JoinEntry.descriptor?).flatMap Join.tables)
            key earlier := by
  obtain ⟨joins, done, rfl, finished, rfl⟩ := resolveJoins_eq_ok_iff.mp resolved
  have ordered := Progress.run_preserves (Progress.Ordered.step rfl)
    (Progress.Ordered.start anchors _) finished
  have final := (ordered.chain unforced).foldl_pushVerbatim
    ((entries.filterMap JoinEntry.raw?).map Text.trim)
  intro condition member
  refine final.grounded position condition ?_
  rw [Chain.conditions, found]
  exact member

namespace CrossedJoins

def contacts : TableRef := .ofText "contacts c"

def phones : Join := .unary .left "phones p" "p.person = c.id AND p.kind = k.id"

def kinds : Join := .unary .inner "kinds AS k" "k.person = c.id"

def labels : Join := (Join.unary .inner "kinds AS k" "k.name = p.label").fromTable "contacts c"

/-- The first join waits for the second, and the third for the first, whose step it ends up on. -/
def entries : List JoinEntry :=
  [.descriptor phones, .descriptor kinds, .descriptor labels, .raw " CROSS JOIN numbers "]

def chain : Chain where
  links := [.table "contacts c", .step .inner "kinds AS k" ["k.person = c.id"],
    .step .left "phones p" ["p.person = c.id AND p.kind = k.id", "k.name = p.label"],
    .verbatim "CROSS JOIN numbers"]
  introduced := [("c", 0), ("k", 1), ("p", 2)]
  residual := []

def history : List Event :=
  [.postponed phones, .placed kinds, .postponed labels, .placed phones, .placed labels]

end CrossedJoins

open CrossedJoins in
theorem resolveJoins_grounds_crossedJoins :
    resolveJoins true [contacts] entries = .ok ⟨chain, history⟩ ∧
      ∀ key ∈ ["k", "p"], ∃ earlier ≤ 2,
        chain.Introduces ([contacts] ++ [phones, kinds, labels].flatMap Join.tables)
          key earlier := by
  have resolved : resolveJoins true [contacts] entries = .ok ⟨chain, history⟩ := by decide +kernel
  have mentioned : Join.qualifiers (knownKeys [contacts] [phones, kinds, labels])
      "k.name = p.label" = ["k", "p"] := by decide +kernel
  refine ⟨resolved, ?_⟩
  rw [← mentioned]
  exact resolveJoins_grounds resolved rfl rfl "k.name = p.label" (by simp)

end SelectCompiler
