import SelectCompiler.Proofs.Join.Placement
import SelectCompiler.Join.Resolution

/-!
What becomes of a chain when a join is settled, which means that it is placed or forced. The chain
changes in one of four ways, and afterwards it holds the join's tables besides those that it held
before.
-/

namespace SelectCompiler

namespace Event

/-- The join that an event put into the chain. -/
def settled? : Event → Option Join
  | placed join => some join
  | forced join => some join
  | postponed _ => none

def forced? : Event → Option Join
  | forced join => some join
  | _ => none

/-- The keys that say where the condition of a settled join belongs if the join brings in no table:
those of its own tables and, unless it was forced, of the others that the condition mentions. -/
def anchorKeys (known : List String) : Event → List String
  | placed join => join.tables.map TableRef.key ++ join.dependencies known
  | forced join => join.tables.map TableRef.key
  | postponed _ => []

end Event

namespace Chain

variable {chain next : Chain} {known : List String} {join : Join} {table : TableRef} {link : Link}
  {event : Event} {key other condition : String} {position : Nat}

/-- Every recorded position is that of a link. -/
def InRange (chain : Chain) : Prop :=
  ∀ entry ∈ chain.introduced, entry.2 < chain.links.length

theorem InRange.position?_lt (inRange : chain.InRange)
    (found : chain.position? key = some position) :
    position < chain.links.length := by
  obtain ⟨_, _, split, _⟩ := List.lookup_eq_some_iff.mp found
  exact inRange (key, position) (by simp [split])

theorem InRange.keys_eq_nil (inRange : chain.InRange) (empty : chain.isEmpty = true) :
    chain.keys = [] := by
  rw [keys, List.map_eq_nil_iff, List.eq_nil_iff_forall_not_mem]
  intro entry member
  have bound := inRange entry member
  rw [List.isEmpty_iff.mp empty] at bound
  exact Nat.not_lt_zero _ bound

theorem InRange.latest_lt (inRange : chain.InRange) {keys : List String} (listed : key ∈ keys)
    (present : key ∈ chain.keys) : chain.latest keys < chain.links.length := by
  obtain ⟨position, found⟩ := mem_keys_iff.mp present
  have member : position ∈ keys.filterMap chain.position? :=
    List.mem_filterMap.mpr ⟨key, listed, found⟩
  have start : 0 < chain.links.length := Nat.zero_lt_of_lt (inRange.position?_lt found)
  have bound : ∀ place ∈ keys.filterMap chain.position?, place < chain.links.length := by
    intro place other
    obtain ⟨_, _, recorded⟩ := List.mem_filterMap.mp other
    exact inRange.position?_lt recorded
  rw [latest, List.foldl_max_eq_max (List.ne_nil_of_mem member), Nat.max_lt]
  exact ⟨start, bound _ (List.max_mem _)⟩

/-- How an event that settles a join changes the chain. -/
inductive Settles (known : List String) (chain : Chain) (join : Join) (event : Event) :
    Chain → Prop where
  /-- A pair comes in together, the left table as a plain one. -/
  | pair {left : TableRef} (names : join.left = some left) (leftAbsent : left.key ∉ chain.keys)
      (rightAbsent : join.right.key ∉ chain.keys) :
      Settles known chain join event ((chain.pushTable left).pushStep join join.right)
  /-- One table comes in with a step; the join names no other that is not there. -/
  | step {table : TableRef} (own : table ∈ join.tables) (absent : table.key ∉ chain.keys)
      (others : ∀ other ∈ join.tables, other.key ∈ chain.keys ∨ other.key = table.key) :
      Settles known chain join event (chain.pushStep join table)
  /-- All tables are there, and the condition goes to the latest of the links that it belongs to. -/
  | merge (present : ∀ table ∈ join.tables, table.key ∈ chain.keys) :
      Settles known chain join event
        (chain.attach (chain.latest (event.anchorKeys known)) join.condition)
  /-- A join of one table is forced in before there is anything to join it to. -/
  | opening (forced : event = .forced join) (alone : join.left = none)
      (empty : chain.isEmpty = true) (absent : join.right.key ∉ chain.keys) :
      Settles known chain join event (chain.push (.verbatim join.sql) join.right.key)

theorem accept_settles (inRange : chain.InRange) (placed : chain.place known join ≠ .wait) :
    chain.Settles known join (.placed join) (chain.accept join (chain.place known join)) := by
  cases found : chain.place known join with
  | seed =>
    obtain ⟨empty, pair, _⟩ := place_eq_seed_iff.mp found
    obtain ⟨left, names⟩ := Option.isSome_iff_exists.mp pair
    have nothing := inRange.keys_eq_nil empty
    rw [accept, names]
    exact .pair names (by simp [nothing]) (by simp [nothing])
  | introduce table =>
    obtain ⟨_, _, own, absent, _⟩ := place_eq_introduce_iff.mp found
    exact .step own absent fun other member => mem_keys_of_introduce found member
  | attach position =>
    obtain ⟨_, _, present, rfl⟩ := place_eq_attach_iff.mp found
    exact .merge present
  | wait => exact absurd found placed

theorem force_settles : chain.Settles known join (.forced join) (chain.force join) := by
  unfold force
  cases names : join.left with
  | none =>
    have own : join.tables = [join.right] := by simp [Join.tables, names]
    simp only
    split
    · rename_i present
      have merged : chain.latest [join.right.key] =
          chain.latest ((Event.forced join).anchorKeys known) := by simp [Event.anchorKeys, own]
      rw [merged]
      exact .merge (by simpa [own] using contains_iff.mp present)
    · rename_i absent
      have absent := not_contains_iff.mp (Bool.eq_false_iff.mpr absent)
      split
      · rename_i empty
        exact .opening rfl names empty absent
      · exact .step (by simp [own]) absent (by simp [own])
  | some left =>
    have own : join.tables = [left, join.right] := by simp [Join.tables, names]
    simp only
    split
    · rename_i leftAbsent rightAbsent
      exact .pair names (not_contains_iff.mp leftAbsent) (not_contains_iff.mp rightAbsent)
    · rename_i leftThere rightAbsent
      have present := contains_iff.mp leftThere
      exact .step (by simp [own]) (not_contains_iff.mp rightAbsent) (by simp [own, present])
    · rename_i leftAbsent rightThere
      have present := contains_iff.mp rightThere
      exact .step (by simp [own]) (not_contains_iff.mp leftAbsent) (by simp [own, present])
    · rename_i leftThere rightThere
      have present : ∀ table ∈ join.tables, table.key ∈ chain.keys := by
        simp [own, contains_iff.mp leftThere, contains_iff.mp rightThere]
      have merged : chain.latest [left.key, join.right.key] =
          chain.latest ((Event.forced join).anchorKeys known) := by simp [Event.anchorKeys, own]
      rw [merged]
      exact .merge present

section Operations

theorem InRange.push (inRange : chain.InRange) : (chain.push link key).InRange := by
  intro entry member
  rw [links_push, List.length_append]
  by_cases present : key ∈ chain.keys
  · rw [push_of_mem present] at member
    exact Nat.lt_add_right _ (inRange entry member)
  · rw [push_of_not_mem present] at member
    obtain old | new := List.mem_append.mp member
    · exact Nat.lt_add_right _ (inRange entry old)
    · rw [List.mem_singleton.mp new]
      exact Nat.lt_succ_self _

theorem InRange.pushTable (inRange : chain.InRange) : (chain.pushTable table).InRange := by
  unfold Chain.pushTable
  split
  · exact inRange
  · exact inRange.push

theorem InRange.attach (inRange : chain.InRange) : (chain.attach position condition).InRange := by
  unfold InRange
  rw [introduced_attach, length_links_attach]
  exact inRange

/-- What holds of the empty chain and is preserved by every plain table holds of the anchors. -/
theorem ofTables_preserves (invariant : Chain → Prop) {anchors : List TableRef}
    (empty : invariant .empty)
    (preserved : ∀ chain : Chain, ∀ table ∈ anchors, invariant chain →
      invariant (chain.pushTable table)) :
    invariant (.ofTables anchors) := by
  suffices ∀ chain : Chain, invariant chain → invariant (anchors.foldl Chain.pushTable chain) from
    this .empty empty
  induction anchors with
  | nil => exact fun _ holds => holds
  | cons table rest ih =>
    intro chain holds
    exact ih (fun chain other member => preserved chain other (List.mem_cons_of_mem _ member)) _
      (preserved chain table List.mem_cons_self holds)

theorem mem_keys_pushTable_iff :
    key ∈ (chain.pushTable table).keys ↔ key ∈ chain.keys ∨ key = table.key := by
  unfold pushTable
  split
  · rename_i present
    have there := contains_iff.mp present
    constructor
    · exact .inl
    · rintro (old | rfl)
      · exact old
      · exact there
  · exact mem_keys_push_iff

theorem mem_keys_pushStep_iff :
    key ∈ (chain.pushStep join table).keys ↔ key ∈ chain.keys ∨ key = table.key :=
  mem_keys_push_iff

end Operations

namespace Settles

theorem inRange (settles : chain.Settles known join event next) (inRange : chain.InRange) :
    next.InRange := by
  cases settles with
  | pair => exact inRange.pushTable.push
  | step => exact inRange.push
  | merge => exact inRange.attach
  | opening => exact inRange.push

/-- The tables of the join are there afterwards, and nothing else is new. -/
theorem mem_keys_iff (settles : chain.Settles known join event next) :
    key ∈ next.keys ↔ key ∈ chain.keys ∨ key ∈ join.tables.map TableRef.key := by
  cases settles with
  | @pair left names _ _ =>
    rw [mem_keys_pushStep_iff, mem_keys_pushTable_iff, Join.tables, names]
    simp [or_assoc]
  | step own absent others =>
    rw [mem_keys_pushStep_iff, List.mem_map]
    constructor
    · rintro (old | rfl)
      · exact .inl old
      · exact .inr ⟨_, own, rfl⟩
    · rintro (old | ⟨other, member, rfl⟩)
      · exact .inl old
      · exact others other member
  | merge present =>
    rw [keys_attach, List.mem_map, iff_self_or]
    rintro ⟨table, own, rfl⟩
    exact present table own
  | opening _ alone _ _ =>
    rw [mem_keys_push_iff, Join.tables, alone]
    simp

theorem isEmpty_eq_false (settles : chain.Settles known join event next)
    (inRange : chain.InRange) : next.isEmpty = false := by
  have named : join.right.key ∈ next.keys :=
    settles.mem_keys_iff.mpr (.inr (List.mem_map.mpr ⟨join.right, by simp [Join.tables], rfl⟩))
  rw [Bool.eq_false_iff]
  intro empty
  rw [(settles.inRange inRange).keys_eq_nil empty] at named
  contradiction

end Settles

end Chain

end SelectCompiler
