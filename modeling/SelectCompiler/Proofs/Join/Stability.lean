import Mathlib.Control.Monad.Basic
import SelectCompiler.Proofs.Join.Schedule

/-!
Joins that are listed in the order in which they were placed. Where a join goes depends on the chain
and on which tables are known, not on how often anybody has been sent back. So the same chain comes
of the joins in this order, and this time nobody waits.
-/

namespace SelectCompiler

variable {known others : List String} {anchors : List TableRef} {joins : List Join} {join : Join}

namespace Chain

variable {chain next last : Chain}

/-- Where a join goes depends on which tables are known, not on how they are listed. -/
theorem place_congr (same : ∀ key, key ∈ known ↔ key ∈ others) :
    chain.place known join = chain.place others join := by
  simp only [place, Join.dependencies_congr same]

/-- The chain finds a place for one join after the other, and becomes the last one by that. -/
inductive Takes (known : List String) : Chain → List Join → Chain → Prop where
  | nil (chain : Chain) : Takes known chain [] chain
  | cons {chain last : Chain} {join : Join} {joins : List Join}
      (placed : chain.place known join ≠ .wait)
      (rest : Takes known (chain.accept join (chain.place known join)) joins last) :
      Takes known chain (join :: joins) last

theorem Takes.concat (takes : chain.Takes known joins next)
    (placed : next.place known join ≠ .wait) :
    chain.Takes known (joins ++ [join]) (next.accept join (next.place known join)) := by
  induction takes with
  | nil chain => exact .cons placed (.nil _)
  | cons first _ ih => exact .cons first (ih placed)

theorem Takes.congr (takes : chain.Takes known joins last)
    (same : ∀ key, key ∈ known ↔ key ∈ others) : chain.Takes others joins last := by
  induction takes with
  | nil chain => exact .nil chain
  | cons placed _ ih =>
    rw [place_congr same] at placed ih
    exact .cons placed ih

end Chain

section Histories

theorem settled_map_placed (joins : List Join) : settled (joins.map .placed) = joins := by
  rw [settled, List.filterMap_map]
  exact List.filterMap_some

theorem countP_map_placed {flag : Event → Bool} (off : ∀ join, flag (.placed join) = false)
    (joins : List Join) : (joins.map Event.placed).countP flag = 0 := by
  rw [List.countP_eq_zero]
  intro event member
  obtain ⟨join, _, rfl⟩ := List.mem_map.mp member
  rw [off join]
  exact Bool.false_ne_true

end Histories

namespace Progress

variable {rules : Rules} {first : Waiting} {rest : List Waiting} {now next : Progress}
  {last : Chain}

/-- If the chain takes all that wait in turn nobody is sent back. -/
theorem run_of_takes {chain : Chain} (takes : chain.Takes rules.known joins last)
    (history : List Event) :
    run rules ⟨joins.map (⟨·, 0⟩), chain, history⟩ =
      .ok ⟨[], last, history ++ joins.map .placed⟩ := by
  induction takes generalizing history with
  | nil chain =>
    rw [List.map_nil, run_of_nil rfl, List.map_nil, List.append_nil]
  | @cons chain last join joins placed _ ih =>
    have stepped : step rules ⟨join, 0⟩ (joins.map (⟨·, 0⟩))
        ⟨⟨join, 0⟩ :: joins.map (⟨·, 0⟩), chain, history⟩ =
          .ok ⟨joins.map (⟨·, 0⟩), chain.accept join (chain.place rules.known join),
            history ++ [.placed join]⟩ :=
      step_eq_ok_iff.mpr (.inr (.inr ⟨placed, rfl⟩))
    rw [List.map_cons, run_of_cons rfl, stepped]
    refine (ih _).trans ?_
    rw [List.append_assoc]
    rfl

/-- While nothing has been forced, the chain of the anchors has taken the settled joins in turn. -/
def Took (known : List String) (anchors : List TableRef) (now : Progress) : Prop :=
  now.history.countP Event.isForced = 0 →
    (Chain.ofTables anchors).Takes known (settled now.history) now.chain

theorem Took.start (known : List String) (anchors : List TableRef) (joins : List Join) :
    (start anchors joins).Took known anchors :=
  fun _ => .nil _

theorem Took.step (same : rules.known = known) (_ : now.waiting = first :: rest)
    (took : now.Took known anchors) (stepped : step rules first rest now = .ok next) :
    next.Took known anchors := by
  subst same
  rcases step_eq_ok_iff.mp stepped with ⟨_, _, rfl⟩ | ⟨_, _, _, rfl⟩ | ⟨placed, rfl⟩
  · intro unforced
    rw [settled_concat_postponed]
    exact took (by simpa [Event.isForced] using unforced)
  · intro unforced
    simp [Event.isForced] at unforced
  · intro unforced
    rw [settled_concat_of_settled rfl]
    exact (took (by simpa [Event.isForced] using unforced)).concat placed

/-- While nobody has been sent back, the joins leave the line as they are listed. -/
def Straight (joins : List Join) (now : Progress) : Prop :=
  now.history.countP Event.isPostponed = 0 →
    settled now.history ++ now.waiting.map Waiting.join = joins

theorem Straight.start (anchors : List TableRef) (joins : List Join) :
    (start anchors joins).Straight joins := by
  intro _
  simp [Progress.start, settled, Function.comp_def]

theorem Straight.step (line : now.waiting = first :: rest) (straight : now.Straight joins)
    (stepped : step rules first rest now = .ok next) : next.Straight joins := by
  have leaves {event : Event} (settles : event.settled? = some first.join)
      (direct : (now.history ++ [event]).countP Event.isPostponed = 0) :
      settled (now.history ++ [event]) ++ rest.map Waiting.join = joins := by
    rw [List.countP_append, Nat.add_eq_zero_iff] at direct
    have listed := straight direct.1
    rwa [line, List.map_cons, List.append_cons, ← settled_concat_of_settled settles] at listed
  rcases step_eq_ok_iff.mp stepped with ⟨_, _, rfl⟩ | ⟨_, _, _, rfl⟩ | ⟨_, rfl⟩
  · intro direct
    simp [Event.isPostponed] at direct
  · exact leaves rfl
  · exact leaves rfl

end Progress

/-- Joins that the chain of the anchors takes in turn are all placed, in that order. -/
theorem resolveJoins_of_takes {entries : List JoinEntry} {last : Chain}
    (listed : entries.filterMap JoinEntry.descriptor? = joins)
    (takes : (Chain.ofTables anchors).Takes (knownKeys anchors joins) joins last) (strict : Bool) :
    resolveJoins strict anchors entries =
      .ok ⟨((entries.filterMap JoinEntry.raw?).map Text.trim).foldl Chain.pushVerbatim last,
        joins.map .placed⟩ :=
  resolveJoins_eq_ok_iff.mpr ⟨_, _, listed.symm, Progress.run_of_takes takes [], rfl⟩

/-- Joins that are listed in the order in which a run without force has placed them are resolved
once more to the same FROM clause, the same tables in the same order and the same left-over
conditions, and none of them waits. And if none has waited, the joins were placed as they are
listed. -/
theorem resolveJoins_stable {strict : Bool} {anchors : List TableRef} {entries : List JoinEntry}
    {resolution : Resolution} (resolved : resolveJoins strict anchors entries = .ok resolution)
    (unforced : resolution.forced = 0) :
    (∀ strictly relisted, relisted.filterMap JoinEntry.descriptor? = settled resolution.history →
      relisted.filterMap JoinEntry.raw? = entries.filterMap JoinEntry.raw? →
        ∃ again, resolveJoins strictly anchors relisted = .ok again ∧
          again.fromClause = resolution.fromClause ∧ again.tables = resolution.tables ∧
          again.residual = resolution.residual ∧
          again.postponements = 0 ∧ again.forced = 0 ∧
          settled again.history = settled resolution.history) ∧
    (resolution.postponements = 0 →
      settled resolution.history = entries.filterMap JoinEntry.descriptor?) := by
  obtain ⟨joins, done, rfl, finished, rfl⟩ := resolveJoins_eq_ok_iff.mp resolved
  obtain ⟨reached, ended⟩ := Progress.reaches_of_run finished
  constructor
  · intro strictly relisted order raws
    have took := reached.preserves (Progress.Took.step rfl) (.start _ anchors _) unforced
    have accounted := reached.preserves Progress.Accounted.step (.start anchors _)
    have takes := took.congr (knownKeys_congr (accounted.settled_perm ended).symm)
    refine ⟨_, resolveJoins_of_takes order takes strictly, ?_⟩
    rw [raws]
    exact ⟨rfl, rfl, rfl, countP_map_placed (fun _ => rfl) _, countP_map_placed (fun _ => rfl) _,
      settled_map_placed _⟩
  · intro direct
    have straight := reached.preserves Progress.Straight.step (.start anchors _) direct
    rwa [ended, List.map_nil, List.append_nil] at straight

namespace RelistedJoins

def people : TableRef := .ofText "people p"

def cities : Join := .unary .left "cities c" "c.id = s.city"

def streets : Join := .unary .inner "streets AS s" "s.id = p.street"

def mayors : Join := (Join.unary .inner "cities c" "c.mayor = p.id").fromTable "people p"

def adults : Join := .unary .inner "people p" "p.age > 17"

/-- The first join waits for the second, and by then the third has brought in its table. -/
def entries : List JoinEntry :=
  [.descriptor cities, .descriptor streets, .descriptor mayors, .descriptor adults,
    .raw "CROSS JOIN numbers"]

def relisted : List JoinEntry :=
  [.descriptor streets, .descriptor mayors, .raw "CROSS JOIN numbers", .descriptor adults,
    .descriptor cities]

def chain : Chain where
  links := [.table "people p", .step .inner "streets AS s" ["s.id = p.street"],
    .step .inner "cities c" ["c.mayor = p.id", "c.id = s.city"], .verbatim "CROSS JOIN numbers"]
  introduced := [("p", 0), ("s", 1), ("c", 2)]
  residual := ["p.age > 17"]

def history : List Event :=
  [.postponed cities, .placed streets, .placed mayors, .placed adults, .placed cities]

end RelistedJoins

open RelistedJoins in
theorem resolveJoins_stable_relistedJoins :
    resolveJoins false [people] entries = .ok ⟨chain, history⟩ ∧
      Resolution.forced ⟨chain, history⟩ = 0 ∧
      ∃ again, resolveJoins true [people] relisted = .ok again ∧
        again.fromClause = chain.sql ∧ again.residual = ["p.age > 17"] ∧
        again.postponements = 0 ∧ again.forced = 0 ∧
        settled again.history = relisted.filterMap JoinEntry.descriptor? := by
  have resolved : resolveJoins false [people] entries = .ok ⟨chain, history⟩ := by decide +kernel
  obtain ⟨again, repeated, text, _, residual, direct, unforced, _⟩ :=
    (resolveJoins_stable resolved rfl).1 true relisted rfl rfl
  refine ⟨resolved, rfl, again, repeated, text, residual, direct, unforced, ?_⟩
  exact (resolveJoins_stable repeated unforced).2 direct

end SelectCompiler
