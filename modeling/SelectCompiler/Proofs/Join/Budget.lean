import Mathlib.Control.Monad.Basic
import SelectCompiler.Proofs.Join.Strictness

/-!
What it costs to bring joins into order. Every turn of the line settles its first join or sends it
back, and no join is sent back more often than there are joins and once more. So the turns are
bounded by the number of joins alone, whatever the joins need from each other.
-/

namespace SelectCompiler

/-- The event sends one of the wanted joins back. -/
def Event.sendsBack (wanted : Join → Bool) : Event → Bool
  | postponed join => wanted join
  | _ => false

/-- How often the wanted joins among some entries of the line have been sent back, taken
together. -/
def sentBack (wanted : Join → Bool) : List Waiting → Nat
  | [] => 0
  | entry :: rest => (if wanted entry.join then entry.postponed else 0) + sentBack wanted rest

section Counts

variable {wanted : Join → Bool} {entries first second : List Waiting} {history : List Event}
  {bound : Nat}

theorem sentBack_append :
    sentBack wanted (first ++ second) = sentBack wanted first + sentBack wanted second := by
  induction first with
  | nil => simp [sentBack]
  | cons entry rest ih => rw [List.cons_append, sentBack, ih, sentBack, Nat.add_assoc]

theorem sentBack_fresh (joins : List Join) : sentBack wanted (joins.map (⟨·, 0⟩)) = 0 := by
  induction joins with
  | nil => rfl
  | cons join rest ih => rw [List.map_cons, sentBack, ih, ite_self]

/-- No entry adds more than the bound. -/
theorem sentBack_le (bounded : ∀ entry ∈ entries, entry.postponed ≤ bound) :
    sentBack wanted entries ≤ entries.length * bound := by
  induction entries with
  | nil => exact Nat.zero_le _
  | cons entry rest ih =>
    have head := bounded entry List.mem_cons_self
    have tail := ih fun other member => bounded other (List.mem_cons_of_mem entry member)
    rw [sentBack, List.length_cons, Nat.succ_mul]
    split <;> omega

/-- Each event settles a join or sends one back. -/
theorem length_history : history.length =
    (settled history).length + history.countP Event.isPostponed := by
  induction history with
  | nil => rfl
  | cons event rest ih =>
    simp only [settled] at ih
    cases event <;>
      simp only [settled, List.filterMap_cons, Event.settled?, List.countP_cons, Event.isPostponed,
        List.length_cons, ih, if_true, if_false, Bool.false_eq_true] <;> omega

theorem countP_isForced_le : history.countP Event.isForced ≤ (settled history).length := by
  induction history with
  | nil => exact Nat.zero_le _
  | cons event rest ih =>
    simp only [settled] at ih
    cases event <;>
      simp only [settled, List.filterMap_cons, Event.settled?, List.countP_cons, Event.isForced,
        List.length_cons, if_true, if_false, Bool.false_eq_true] <;> omega

theorem countP_sendsBack_all :
    history.countP (Event.sendsBack fun _ => true) = history.countP Event.isPostponed := by
  refine List.countP_congr fun event _ => ?_
  cases event <;> rfl

end Counts

namespace Progress

variable {rules : Rules} {first : Waiting} {others left : List Waiting} {now next : Progress}
  {anchors : List TableRef} {joins : List Join} {budget : Nat}

/-- The entries that have left the line, each as it was when it left, and those that are still in it
tell how often every join has been sent back. -/
structure Tallied (budget : Nat) (left : List Waiting) (now : Progress) : Prop where
  settled : left.map Waiting.join = settled now.history
  patient : ∀ entry ∈ left ++ now.waiting, entry.postponed ≤ budget + 1
  counted : ∀ wanted, now.history.countP (Event.sendsBack wanted) =
    sentBack wanted (left ++ now.waiting)

namespace Tallied

theorem start (budget : Nat) (anchors : List TableRef) (joins : List Join) :
    Tallied budget [] (start anchors joins) where
  settled := rfl
  patient := Patient.start budget anchors joins
  counted _ := (sentBack_fresh joins).symm

theorem postpone {chain : Chain} (tallied : now.Tallied budget left)
    (line : now.waiting = first :: others) (early : first.postponed ≤ budget) :
    Tallied budget left ⟨others ++ [⟨first.join, first.postponed + 1⟩], chain,
      now.history ++ [.postponed first.join]⟩ where
  settled := by rw [settled_concat_postponed, tallied.settled]
  patient := by
    intro entry member
    have before := tallied.patient
    rw [line] at before
    simp only [List.mem_append, List.mem_singleton] at member
    rcases member with gone | waiting | rfl
    · exact before entry (by simp [gone])
    · exact before entry (by simp [waiting])
    · exact Nat.succ_le_succ early
  counted := by
    intro wanted
    have before := tallied.counted wanted
    rw [line] at before
    rw [sentBack_append, sentBack] at before
    rw [List.countP_append, List.countP_singleton, Event.sendsBack, before]
    simp only [sentBack_append, sentBack]
    by_cases sent : wanted first.join = true
    · simp only [sent, if_true]
      omega
    · simp only [sent, Bool.false_eq_true, if_false]
      omega

theorem settle {chain : Chain} {event : Event} (tallied : now.Tallied budget left)
    (line : now.waiting = first :: others) (settles : event.settled? = some first.join) :
    Tallied budget (left ++ [first]) ⟨others, chain, now.history ++ [event]⟩ where
  settled := by
    rw [settled_concat_of_settled settles, List.map_append, tallied.settled]
    rfl
  patient := by
    have before := tallied.patient
    rw [line] at before
    rwa [List.append_assoc]
  counted := by
    intro wanted
    have quiet : Event.sendsBack wanted event = false := by
      cases event with
      | placed join => rfl
      | forced join => rfl
      | postponed join => contradiction
    have before := tallied.counted wanted
    rw [line] at before
    rw [List.append_assoc, List.singleton_append, ← before, List.countP_append,
      List.countP_singleton, quiet]
    rfl

theorem step (tallied : now.Tallied budget left) (line : now.waiting = first :: others)
    (stepped : step rules first others now = .ok next) (bounded : rules.budget = budget) :
    ∃ left, next.Tallied budget left := by
  rcases step_eq_ok_iff.mp stepped with ⟨_, early, rfl⟩ | ⟨_, _, _, rfl⟩ | ⟨_, rfl⟩
  · exact ⟨left, tallied.postpone line (bounded ▸ early)⟩
  · exact ⟨_, tallied.settle line rfl⟩
  · exact ⟨_, tallied.settle line rfl⟩

/-- All entries together have been sent back no more often than each may be. -/
theorem postponements_le (tallied : now.Tallied budget left)
    (accounted : now.Accounted anchors joins) :
    now.history.countP Event.isPostponed ≤ joins.length * (budget + 1) := by
  have all : (left ++ now.waiting).length = joins.length := by
    have divided := accounted.divided.length_eq
    rw [← tallied.settled, ← List.map_append, List.length_map] at divided
    exact divided
  rw [← countP_sendsBack_all, tallied.counted, ← all]
  exact sentBack_le tallied.patient

end Tallied

/-- The account of a run with the postponements of every join in it. -/
structure Budgeted (budget : Nat) (anchors : List TableRef) (joins : List Join) (now : Progress) :
    Prop where
  accounted : now.Accounted anchors joins
  tallied : ∃ left, now.Tallied budget left

theorem Budgeted.start (budget : Nat) (anchors : List TableRef) (joins : List Join) :
    (start anchors joins).Budgeted budget anchors joins where
  accounted := .start anchors joins
  tallied := ⟨[], .start budget anchors joins⟩

theorem Budgeted.step (bounded : rules.budget = budget) (line : now.waiting = first :: others)
    (budgeted : now.Budgeted budget anchors joins)
    (stepped : step rules first others now = .ok next) :
    next.Budgeted budget anchors joins := by
  obtain ⟨left, tallied⟩ := budgeted.tallied
  exact ⟨budgeted.accounted.step line stepped, tallied.step line stepped bounded⟩

/-- Each turn leaves one event, so all turns together are no more than this. -/
theorem Budgeted.length_history_le (budgeted : now.Budgeted budget anchors joins) :
    now.history.length ≤ joins.length * (budget + 2) := by
  obtain ⟨left, tallied⟩ := budgeted.tallied
  have postponements := tallied.postponements_le budgeted.accounted
  have divided := budgeted.accounted.divided.length_eq
  rw [List.length_append] at divided
  rw [length_history, Nat.mul_add_one]
  omega

/-- Nor has anybody been sent back more often than it takes to be stuck. -/
theorem Budgeted.patient (budgeted : now.Budgeted budget anchors joins) :
    ∀ entry ∈ now.waiting, entry.postponed ≤ budget + 1 := by
  obtain ⟨left, tallied⟩ := budgeted.tallied
  exact fun entry member => tallied.patient entry (List.mem_append_right left member)

theorem Budgeted.of_reaches {strict : Bool}
    (reached : Reaches (.ofJoins strict anchors joins) (.start anchors joins) now) :
    now.Budgeted joins.length anchors joins :=
  reached.preserves (Budgeted.step rfl) (.start joins.length anchors joins)

end Progress

/-- What a resolution of the joins has cost, told by its history. -/
structure Resolution.WithinBudget (joins : List Join) (resolution : Resolution) : Prop where
  /-- Every join has left the line once, placed or forced. -/
  everyone : (settled resolution.history).Perm joins
  /-- Each turn of the line was for a join that left it or for one that was sent back. -/
  turns : resolution.history.length = joins.length + resolution.postponements
  /-- How often each join was sent back before it left. -/
  patience : ∃ left : List Waiting, left.map Waiting.join = settled resolution.history ∧
    (∀ entry ∈ left, entry.postponed ≤ joins.length + 1) ∧
    ∀ wanted, resolution.history.countP (Event.sendsBack wanted) = sentBack wanted left
  postponements : resolution.postponements ≤ joins.length * (joins.length + 1)
  forced : resolution.forced ≤ joins.length

section Resolution

variable {strict : Bool} {anchors : List TableRef} {joins : List Join} {entries : List JoinEntry}
  {resolution : Resolution} {done : Progress}

theorem Resolution.WithinBudget.of_budgeted (budgeted : done.Budgeted joins.length anchors joins)
    (ended : done.waiting = []) (same : resolution.history = done.history) :
    resolution.WithinBudget joins := by
  have everyone := budgeted.accounted.settled_perm ended
  obtain ⟨left, tallied⟩ := budgeted.tallied
  have alone : left ++ done.waiting = left := by rw [ended, List.append_nil]
  have patient := tallied.patient
  have counted := tallied.counted
  rw [alone] at patient
  simp only [alone] at counted
  constructor
  · rwa [same]
  · rw [same, length_history, everyone.length_eq, Resolution.postponements, same]
  · exact ⟨left, same ▸ tallied.settled, patient, same ▸ counted⟩
  · rw [Resolution.postponements, same]
    exact tallied.postponements_le budgeted.accounted
  · rw [Resolution.forced, same, ← everyone.length_eq]
    exact countP_isForced_le

theorem withinBudget_of_resolved (resolved : resolveJoins strict anchors entries = .ok resolution) :
    resolution.WithinBudget (entries.filterMap JoinEntry.descriptor?) := by
  obtain ⟨done, reached, ended, same, _⟩ := resolveJoins_cases resolved
  exact .of_budgeted (.of_reaches reached) ended same

end Resolution

/-- The line always comes to its end. If joins may be forced there is a resolution, and if not
there is one or a fault that names a join. In a resolution each join has left the line once, sent
back at most once more often than there are joins. So the postponements are bounded, and no state
that comes up has seen more turns than that bound and the joins together, also where the run ends
in a fault. -/
theorem resolveJoins_within_budget (strict : Bool) (anchors : List TableRef)
    (entries : List JoinEntry) :
    ((∃ resolution, resolveJoins strict anchors entries = .ok resolution ∧
        resolution.WithinBudget (entries.filterMap JoinEntry.descriptor?)) ∨
      (strict = true ∧ ∃ join ∈ entries.filterMap JoinEntry.descriptor?,
        resolveJoins strict anchors entries = .error (.unresolvedJoin join.sql
          ((entries.filterMap JoinEntry.descriptor?).length + 1)))) ∧
    ∀ now, Progress.Reaches
        (.ofJoins strict anchors (entries.filterMap JoinEntry.descriptor?))
        (.start anchors (entries.filterMap JoinEntry.descriptor?)) now →
      now.history.length ≤ (entries.filterMap JoinEntry.descriptor?).length *
          ((entries.filterMap JoinEntry.descriptor?).length + 2) ∧
        ∀ entry ∈ now.waiting,
          entry.postponed ≤ (entries.filterMap JoinEntry.descriptor?).length + 1 := by
  constructor
  · obtain ⟨resolution, resolved, strictly⟩ := resolveJoins_lenient anchors entries
    have within := withinBudget_of_resolved resolved
    cases strict with
    | false => exact .inl ⟨resolution, resolved, within⟩
    | true =>
      cases forced : firstForced? resolution.history with
      | none =>
        rw [forced] at strictly
        exact .inl ⟨resolution, strictly, within⟩
      | some join =>
        rw [forced] at strictly
        have given := within.everyone.subset (firstForced?_mem_settled forced)
        exact .inr ⟨rfl, join, given, strictly⟩
  · intro now reached
    have budgeted := Progress.Budgeted.of_reaches reached
    exact ⟨budgeted.length_history_le, budgeted.patient⟩

namespace LockedRooms

def rooms : TableRef := .ofText "rooms"

def doors : Join := .unary .inner "doors d" "d.room = rooms.id AND d.lock = k.lock"

def keys : Join := .unary .left "keys AS k" "k.door = d.id"

/-- Each of the two joins waits for the other. -/
def entries : List JoinEntry := [.descriptor doors, .descriptor keys]

def chain : Chain where
  links := [.table "rooms", .step .inner "doors d" ["d.room = rooms.id AND d.lock = k.lock"],
    .step .left "keys AS k" ["k.door = d.id"]]
  introduced := [("rooms", 0), ("d", 1), ("k", 2)]
  residual := []

def history : List Event :=
  (List.replicate 3 [.postponed doors, .postponed keys]).flatten ++ [.forced doors, .placed keys]

/-- The line after its first turn. -/
def next : Progress :=
  ⟨[⟨keys, 0⟩, ⟨doors, 1⟩], .ofTables [rooms], [.postponed doors]⟩

end LockedRooms

open LockedRooms in
/-- The bound is reached by two joins that wait for each other. -/
theorem resolveJoins_within_budget_lockedRooms :
    resolveJoins false [rooms] entries = .ok ⟨chain, history⟩ ∧ history.length = 2 * (2 + 2) ∧
      Resolution.WithinBudget [doors, keys] ⟨chain, history⟩ ∧
      Progress.Reaches (.ofJoins false [rooms] [doors, keys]) (.start [rooms] [doors, keys]) next ∧
      next.history.length ≤ 2 * (2 + 2) := by
  have resolved : resolveJoins false [rooms] entries = .ok ⟨chain, history⟩ := by decide +kernel
  have turn : Progress.Turn (.ofJoins false [rooms] [doors, keys])
      (.start [rooms] [doors, keys]) next :=
    ⟨⟨doors, 0⟩, [⟨keys, 0⟩], rfl, by decide +kernel⟩
  obtain ⟨outcome, turns⟩ := resolveJoins_within_budget false [rooms] entries
  refine ⟨resolved, rfl, ?_, .single turn, (turns next (.single turn)).1⟩
  rcases outcome with ⟨resolution, found, within⟩ | ⟨contrary, _⟩
  · rw [resolved] at found
    cases found
    exact within
  · contradiction

end SelectCompiler
