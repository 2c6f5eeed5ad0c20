import Mathlib.Control.Monad.Basic
import SelectCompiler.Proofs.Join.Account

/-!
When joins can be brought into order at all. A join is ready for the tables that are there if they
are all that its condition mentions besides its own and one of a pair is among them. With a plain
table to begin with, the line places every join without force exactly if the joins have some order
in which each is ready for the tables before it.
-/

namespace SelectCompiler

namespace Join

/-- All other tables that the condition mentions are there, and for a pair one of its own two. -/
def Ready (known present : List String) (join : Join) : Prop :=
  (∀ key ∈ join.dependencies known, key ∈ present) ∧
    (join.isBinary = true → ∃ table ∈ join.tables, table.key ∈ present)

variable {known others present later : List String} {join : Join}

/-- Which of the tables are known counts for what a condition mentions, not how they are listed. -/
theorem dependencies_congr (same : ∀ key, key ∈ known ↔ key ∈ others) :
    join.dependencies known = join.dependencies others := by
  have alike : known.contains = others.contains := by
    funext key
    rw [Bool.eq_iff_iff, List.contains_iff_mem, List.contains_iff_mem]
    exact same key
  rw [dependencies, qualifiers, alike, dependencies, qualifiers]

theorem Ready.congr (ready : join.Ready known present) (same : ∀ key, key ∈ others ↔ key ∈ known) :
    join.Ready others present :=
  ⟨dependencies_congr same ▸ ready.1, ready.2⟩

/-- A join that is ready stays so when further tables arrive. -/
theorem Ready.mono (ready : join.Ready known present) (arrived : ∀ key ∈ present, key ∈ later) :
    join.Ready known later := by
  refine ⟨fun key mentioned => arrived key (ready.1 key mentioned), fun pair => ?_⟩
  obtain ⟨table, own, there⟩ := ready.2 pair
  exact ⟨table, own, arrived _ there⟩

end Join

/-- Each join is ready for the tables of the anchors and of the joins before it. -/
def InOrder (known : List String) (anchors : List TableRef) (order : List Join) : Prop :=
  ∀ before join after, order = before ++ join :: after →
    join.Ready known (knownKeys anchors before)

variable {known : List String} {anchors : List TableRef} {joins order : List Join} {join : Join}

theorem InOrder.concat (inOrder : InOrder known anchors order)
    (ready : join.Ready known (knownKeys anchors order)) :
    InOrder known anchors (order ++ [join]) := by
  intro before other after split
  obtain rfl | ⟨rest, last, rfl⟩ := after.eq_nil_or_concat
  · obtain ⟨rfl, same⟩ := List.append_inj' split rfl
    obtain rfl := (List.cons.inj same).1
    exact ready
  · rw [List.concat_eq_append, ← List.cons_append, ← List.append_assoc] at split
    exact inOrder before other rest (List.append_inj_left' split rfl)

namespace Chain

variable {chain : Chain}

/-- In a chain that has begun, exactly the joins that are ready find a place. -/
theorem place_ne_wait_iff (begun : chain.isEmpty = false) :
    chain.place known join ≠ .wait ↔ join.Ready known chain.keys := by
  rw [Join.Ready, ← Supports]
  cases names : join.left with
  | none =>
    rw [place_unary names, Join.isBinary, names]
    grind
  | some left =>
    rw [place_pair names, Join.isBinary, Join.tables, names]
    grind

end Chain

namespace Progress

variable {rules : Rules} {first entry : Waiting} {others front back : List Waiting}
  {now next : Progress} {round : Nat}

theorem Accounted.begun (anchored : anchors ≠ []) (accounted : now.Accounted anchors joins) :
    now.chain.isEmpty = false := by
  obtain ⟨table, rest, rfl⟩ := List.exists_cons_of_ne_nil anchored
  have there : table.key ∈ now.chain.keys :=
    (accounted.keys _).mpr (mem_knownKeys_iff.mpr (.inl (by simp)))
  rw [Bool.eq_false_iff]
  intro empty
  rw [accounted.inRange.keys_eq_nil empty] at there
  contradiction

theorem Accounted.place_ne_wait_iff (anchored : anchors ≠ [])
    (accounted : now.Accounted anchors joins) :
    now.chain.place known join ≠ .wait ↔
      join.Ready known (knownKeys anchors (settled now.history)) := by
  rw [Chain.place_ne_wait_iff (accounted.begun anchored)]
  constructor
  · exact fun ready => ready.mono fun key => (accounted.keys key).mp
  · exact fun ready => ready.mono fun key => (accounted.keys key).mpr

/-- As long as the joins have an order, one of those in the line can be placed: the first of the
order that is still there. -/
theorem Accounted.exists_placeable (anchored : anchors ≠ [])
    (accounted : now.Accounted anchors joins) (all : order.Perm joins)
    (inOrder : InOrder known anchors order) (line : now.waiting ≠ []) :
    ∃ entry ∈ now.waiting, now.chain.place known entry.join ≠ .wait := by
  have divided := accounted.divided.trans all.symm
  obtain ⟨entry, rest, waiting⟩ := List.exists_cons_of_ne_nil line
  have listed : entry.join ∈ order := divided.subset (by simp [waiting])
  have still : (order.find? (· ∈ now.waiting.map Waiting.join)).isSome = true :=
    List.find?_isSome.mpr ⟨entry.join, listed, by simp [waiting]⟩
  obtain ⟨join, found⟩ := Option.isSome_iff_exists.mp still
  obtain ⟨there, before, after, split, gone⟩ := List.find?_eq_some_iff_append.mp found
  obtain ⟨other, member, rfl⟩ := List.mem_map.mp (of_decide_eq_true there)
  refine ⟨other, member, (accounted.place_ne_wait_iff anchored).mpr ?_⟩
  refine (inOrder before other.join after split).mono (knownKeys_mono fun earlier placed => ?_)
  -- What stands before it in the order waits no longer, so it is settled.
  have divided : earlier ∈ settled now.history ++ now.waiting.map Waiting.join :=
    divided.mem_iff.mpr (split ▸ List.mem_append_left _ placed)
  exact (List.mem_append.mp divided).resolve_right (by simpa using gone earlier placed)

/-- What holds throughout a run that forces nothing: the joins that it has settled are in order. -/
structure Orderly (known : List String) (anchors : List TableRef) (joins : List Join)
    (now : Progress) : Prop where
  accounted : now.Accounted anchors joins
  inOrder : InOrder known anchors (settled now.history)

theorem Orderly.start (known : List String) (anchors : List TableRef) (joins : List Join) :
    (start anchors joins).Orderly known anchors joins where
  accounted := .start anchors joins
  inOrder before join after split := by simp [Progress.start, settled] at split

theorem Orderly.step (anchored : anchors ≠ []) (strict : rules.strict = true)
    (line : now.waiting = first :: others) (orderly : now.Orderly rules.known anchors joins)
    (stepped : step rules first others now = .ok next) :
    next.Orderly rules.known anchors joins where
  accounted := orderly.accounted.step line stepped
  inOrder := by
    obtain ⟨_, _, rfl⟩ | ⟨_, _, lenient, _⟩ | ⟨placed, rfl⟩ := step_eq_ok_iff.mp stepped
    · rw [settled_concat_postponed]
      exact orderly.inOrder
    · rw [strict] at lenient
      contradiction
    · rw [settled_concat_of_settled rfl]
      exact orderly.inOrder.concat ((orderly.accounted.place_ne_wait_iff anchored).mp placed)

/-- The line goes round. Those at its front have been sent back once in every round before this
one, and those at its back in this one too. Each round but the last has settled a join, and until
this one has done so nobody at the back finds a place. -/
structure Round (known : List String) (front back : List Waiting) (round : Nat) (now : Progress) :
    Prop where
  line : now.waiting = front ++ back
  fresh : ∀ entry ∈ front, entry.postponed = round
  sentBack : ∀ entry ∈ back, entry.postponed = round + 1
  earlier : round ≤ (settled now.history).length
  stalled : round = (settled now.history).length →
    ∀ entry ∈ back, now.chain.place known entry.join = .wait

theorem Round.start (known : List String) (anchors : List TableRef) (joins : List Join) :
    (start anchors joins).Round known (joins.map (⟨·, 0⟩)) [] 0 where
  line := (List.append_nil _).symm
  fresh entry member := by
    obtain ⟨join, _, rfl⟩ := List.mem_map.mp member
    rfl
  sentBack _ member := nomatch member
  earlier := Nat.zero_le _
  stalled _ _ member := nomatch member

/-- After a round in which somebody at the back has come to find a place the next one begins. -/
theorem Round.renew (inRound : now.Round known [] back round)
    (placeable : ∃ entry ∈ now.waiting, now.chain.place known entry.join ≠ .wait) :
    now.Round known back [] (round + 1) where
  line := by rw [inRound.line, List.nil_append, List.append_nil]
  fresh := inRound.sentBack
  sentBack _ member := nomatch member
  earlier := by
    obtain ⟨entry, member, placed⟩ := placeable
    rw [inRound.line, List.nil_append] at member
    exact Nat.lt_of_le_of_ne inRound.earlier fun same =>
      placed (inRound.stalled same entry member)
  stalled _ _ member := nomatch member

theorem Round.postpone (inRound : now.Round known (first :: front) back round)
    (waits : now.chain.place known first.join = .wait) :
    (Progress.mk (front ++ back ++ [⟨first.join, first.postponed + 1⟩]) now.chain
      (now.history ++ [.postponed first.join])).Round known front
        (back ++ [⟨first.join, first.postponed + 1⟩]) round where
  line := List.append_assoc _ _ _
  fresh entry member := inRound.fresh entry (List.mem_cons_of_mem _ member)
  sentBack entry member := by
    obtain old | new := List.mem_append.mp member
    · exact inRound.sentBack entry old
    · rw [List.mem_singleton.mp new, inRound.fresh first List.mem_cons_self]
  earlier := by
    rw [settled_concat_postponed]
    exact inRound.earlier
  stalled same entry member := by
    rw [settled_concat_postponed] at same
    obtain old | new := List.mem_append.mp member
    · exact inRound.stalled same entry old
    · rw [List.mem_singleton.mp new]
      exact waits

theorem Round.settle {chain : Chain} (inRound : now.Round known (first :: front) back round)
    (event : Event) (settles : event.settled? = some first.join) :
    (Progress.mk (front ++ back) chain (now.history ++ [event])).Round known front back round where
  line := rfl
  fresh entry member := inRound.fresh entry (List.mem_cons_of_mem _ member)
  sentBack := inRound.sentBack
  earlier := by
    rw [settled_concat_of_settled settles, List.length_append]
    exact Nat.le_add_right_of_le inRound.earlier
  stalled same := by
    rw [settled_concat_of_settled settles, List.length_append, List.length_singleton] at same
    exact absurd inRound.earlier (by omega)

/-- What holds throughout a run whose joins have an order: the line is in one of its rounds. -/
structure Rounds (known : List String) (anchors : List TableRef) (joins : List Join)
    (now : Progress) : Prop where
  accounted : now.Accounted anchors joins
  inRound : ∃ front back round, now.Round known front back round

theorem Rounds.start (known : List String) (anchors : List TableRef) (joins : List Join) :
    (start anchors joins).Rounds known anchors joins where
  accounted := .start anchors joins
  inRound := ⟨_, _, _, .start known anchors joins⟩

/-- As long as somebody in the line can be placed, whoever is first is at the front of a round. -/
theorem Rounds.exists_front (rounds : now.Rounds known anchors joins)
    (placeable : ∃ entry ∈ now.waiting, now.chain.place known entry.join ≠ .wait)
    (line : now.waiting = first :: others) :
    ∃ front back round, now.Round known (first :: front) back round ∧ others = front ++ back := by
  obtain ⟨front, back, round, inRound⟩ := rounds.inRound
  cases front with
  | nil =>
    have renewed := inRound.renew placeable
    obtain rfl : back = first :: others := by
      rw [← line, renewed.line, List.append_nil]
    exact ⟨others, [], round + 1, renewed, (List.append_nil _).symm⟩
  | cons head front =>
    obtain ⟨rfl, rest⟩ := List.cons.inj (line.symm.trans inRound.line)
    exact ⟨front, back, round, inRound, rest⟩

/-- If the joins have an order no step is stuck: whoever comes first has been sent back no more
often than joins have been settled. -/
theorem Rounds.advance (anchored : anchors ≠ []) (all : order.Perm joins)
    (inOrder : InOrder rules.known anchors order) (budget : joins.length ≤ rules.budget)
    (line : now.waiting = first :: others) (rounds : now.Rounds rules.known anchors joins) :
    ∃ next, step rules first others now = .ok next ∧ next.Rounds rules.known anchors joins := by
  have placeable := rounds.accounted.exists_placeable anchored all inOrder (by simp [line])
  obtain ⟨front, back, round, inRound, rfl⟩ := rounds.exists_front placeable line
  have early : first.postponed ≤ rules.budget := by
    have count := rounds.accounted.divided.length_eq
    rw [List.length_append] at count
    have soon := inRound.earlier
    rw [inRound.fresh first List.mem_cons_self]
    omega
  by_cases waits : now.chain.place rules.known first.join = .wait
  · have stepped : step rules first (front ++ back) now = .ok _ :=
      step_eq_ok_iff.mpr (.inl ⟨waits, early, rfl⟩)
    exact ⟨_, stepped, rounds.accounted.step line stepped, front, _, round,
      inRound.postpone waits⟩
  · have stepped : step rules first (front ++ back) now = .ok _ :=
      step_eq_ok_iff.mpr (.inr (.inr ⟨waits, rfl⟩))
    exact ⟨_, stepped, rounds.accounted.step line stepped, front, back, round,
      inRound.settle (.placed first.join) rfl⟩

/-- With a plain table to begin with, a strict run ends well exactly if the joins have an order. -/
theorem run_strict_iff (anchored : anchors ≠ []) :
    (∃ done, run (.ofJoins true anchors joins) (start anchors joins) = .ok done) ↔
      ∃ order, order.Perm joins ∧ InOrder (knownKeys anchors joins) anchors order := by
  constructor
  · rintro ⟨done, finished⟩
    obtain ⟨reached, ended⟩ := reaches_of_run finished
    have orderly := reached.preserves (Orderly.step anchored rfl) (.start _ anchors joins)
    exact ⟨settled done.history, orderly.accounted.settled_perm ended, orderly.inOrder⟩
  · rintro ⟨order, all, inOrder⟩
    have budget := Nat.le_refl joins.length
    exact run_succeeds (Rounds.advance anchored all inOrder budget) (.start _ anchors joins)

end Progress

section Resolution

variable {strict : Bool} {entries others : List JoinEntry} {resolution : Resolution}

theorem resolveJoins_succeeds_iff :
    (∃ resolution, resolveJoins strict anchors entries = .ok resolution) ↔
      ∃ done, Progress.run
          (.ofJoins strict anchors (entries.filterMap JoinEntry.descriptor?))
          (.start anchors (entries.filterMap JoinEntry.descriptor?)) = .ok done := by
  constructor
  · rintro ⟨resolution, resolved⟩
    obtain ⟨_, done, rfl, finished, _⟩ := resolveJoins_eq_ok_iff.mp resolved
    exact ⟨done, finished⟩
  · rintro ⟨done, finished⟩
    exact ⟨_, resolveJoins_eq_ok_iff.mpr ⟨_, done, rfl, finished, rfl⟩⟩

/-- An order of some joins serves for any list of the same joins. -/
theorem exists_inOrder_congr {others : List Join} (rearranged : others.Perm joins)
    (ordered : ∃ order, order.Perm joins ∧ InOrder (knownKeys anchors joins) anchors order) :
    ∃ order, order.Perm others ∧ InOrder (knownKeys anchors others) anchors order := by
  obtain ⟨order, all, inOrder⟩ := ordered
  exact ⟨order, all.trans rearranged.symm, fun before join after split =>
    (inOrder before join after split).congr (knownKeys_congr rearranged)⟩

end Resolution

/-- With a plain table to begin with, joins are resolved without force exactly if they have some
order in which each is ready for the tables before it. So the list in which they are given decides
neither about success nor about the tables that are there in the end. -/
theorem resolveJoins_strict_complete {anchors : List TableRef} {entries : List JoinEntry}
    (anchored : anchors ≠ []) :
    ((∃ resolution, resolveJoins true anchors entries = .ok resolution) ↔
      ∃ order, order.Perm (entries.filterMap JoinEntry.descriptor?) ∧
        InOrder (knownKeys anchors (entries.filterMap JoinEntry.descriptor?)) anchors order) ∧
    ∀ others, others.Perm entries →
      ((∃ resolution, resolveJoins true anchors others = .ok resolution) ↔
        ∃ resolution, resolveJoins true anchors entries = .ok resolution) ∧
      ∀ first second, resolveJoins true anchors others = .ok first →
        resolveJoins true anchors entries = .ok second →
          ∀ key, key ∈ first.tables ↔ key ∈ second.tables := by
  have complete (entries : List JoinEntry) :
      (∃ resolution, resolveJoins true anchors entries = .ok resolution) ↔ _ :=
    resolveJoins_succeeds_iff.trans (Progress.run_strict_iff anchored)
  refine ⟨complete entries, fun others rearranged => ⟨?_, ?_⟩⟩
  · have joins := rearranged.filterMap JoinEntry.descriptor?
    rw [complete others, complete entries]
    exact ⟨exists_inOrder_congr joins.symm, exists_inOrder_congr joins⟩
  · intro first second resolved again key
    rw [mem_tables_iff resolved, mem_tables_iff again,
      knownKeys_congr (rearranged.filterMap JoinEntry.descriptor?)]

namespace StackedJoins

def boards : TableRef := .ofText "boards"

def columns : Join := .unary .inner "columns AS c" "c.board = boards.id"

def cards : Join := (Join.unary .left "cards" "cards.column = c.id").fromTable "columns AS c"

def notes : Join := (Join.unary .left "notes n" "n.card = cards.id").fromTable "cards"

/-- Each join but the last needs the table that the next one brings in. -/
def entries : List JoinEntry := [.descriptor notes, .descriptor cards, .descriptor columns]

def chain : Chain where
  links := [.table "boards", .step .inner "columns AS c" ["c.board = boards.id"],
    .step .left "cards" ["cards.column = c.id"], .step .left "notes n" ["n.card = cards.id"]]
  introduced := [("boards", 0), ("c", 1), ("cards", 2), ("n", 3)]
  residual := []

def history : List Event :=
  [.postponed notes, .postponed cards, .placed columns, .postponed notes, .placed cards,
    .placed notes]

end StackedJoins

open StackedJoins in
theorem resolveJoins_strict_complete_stackedJoins :
    [boards] ≠ [] ∧ resolveJoins true [boards] entries = .ok ⟨chain, history⟩ ∧
      ∀ others, others.Perm entries →
        ∃ resolution, resolveJoins true [boards] others = .ok resolution ∧
          ∀ key, key ∈ resolution.tables ↔ key ∈ chain.keys := by
  have anchored : [boards] ≠ [] := List.cons_ne_nil _ _
  have resolved : resolveJoins true [boards] entries = .ok ⟨chain, history⟩ := by decide +kernel
  refine ⟨anchored, resolved, fun others rearranged => ?_⟩
  obtain ⟨alike, same⟩ := (resolveJoins_strict_complete anchored).2 others rearranged
  obtain ⟨resolution, obtained⟩ := alike.mpr ⟨_, resolved⟩
  exact ⟨resolution, obtained, same resolution _ obtained resolved⟩

end SelectCompiler
