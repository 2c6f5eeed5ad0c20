import Mathlib.Logic.Relation
import SelectCompiler.Proofs.Outcome
import SelectCompiler.Join.Resolution

/-!
Runs of the line. A step postpones, forces or places the first join; what every step preserves
holds of the state in which a run ends, and there nobody waits.
-/

namespace SelectCompiler

/-- The rules by which a list of joins is resolved. -/
def Rules.ofJoins (strict : Bool) (anchors : List TableRef) (joins : List Join) : Rules :=
  ⟨strict, knownKeys anchors joins, joins.length⟩

namespace Progress

/-- All joins in the line, and a chain of the anchors alone. -/
def start (anchors : List TableRef) (joins : List Join) : Progress :=
  ⟨joins.map (⟨·, 0⟩), .ofTables anchors, []⟩

variable {rules : Rules} {first : Waiting} {others : List Waiting} {now next done : Progress}

theorem step_eq_ok_iff :
    step rules first others now = .ok next ↔
      (now.chain.place rules.known first.join = .wait ∧ first.postponed ≤ rules.budget ∧
        next = ⟨others ++ [⟨first.join, first.postponed + 1⟩], now.chain,
          now.history ++ [.postponed first.join]⟩) ∨
      (now.chain.place rules.known first.join = .wait ∧ rules.budget < first.postponed ∧
        rules.strict = false ∧
        next = ⟨others, now.chain.force first.join, now.history ++ [.forced first.join]⟩) ∨
      (now.chain.place rules.known first.join ≠ .wait ∧
        next = ⟨others, now.chain.accept first.join (now.chain.place rules.known first.join),
          now.history ++ [.placed first.join]⟩) := by
  unfold step
  split
  · rename_i waits
    rw [waits]
    grind
  · rename_i place found
    grind

/-- What holds at the start and is preserved by every step holds at the end. -/
theorem run_preserves {invariant : Progress → Prop}
    (preserved : ∀ {now next : Progress} {first : Waiting} {others : List Waiting},
      now.waiting = first :: others → invariant now → step rules first others now = .ok next →
        invariant next)
    (holds : invariant now) (finished : run rules now = .ok done) : invariant done := by
  fun_induction run rules now with
  | case1 now line =>
    rw [← Except.ok.inj finished]
    exact holds
  | case2 now first others line fault stuck => contradiction
  | case3 now first others line next stepped ih =>
    exact ih (preserved line holds stepped) finished

/-- A run ends well if some invariant lets every step of it go on. -/
theorem run_succeeds {invariant : Progress → Prop}
    (advances : ∀ {now : Progress} {first : Waiting} {others : List Waiting},
      now.waiting = first :: others → invariant now →
        ∃ next, step rules first others now = .ok next ∧ invariant next)
    (holds : invariant now) : ∃ done, run rules now = .ok done := by
  fun_induction run rules now with
  | case1 now line => exact ⟨now, rfl⟩
  | case2 now first others line fault stuck =>
    obtain ⟨next, stepped, _⟩ := advances line holds
    rw [stuck] at stepped
    contradiction
  | case3 now first others line next stepped ih =>
    obtain ⟨after, same, kept⟩ := advances line holds
    obtain rfl := Except.ok.inj (stepped.symm.trans same)
    exact ih kept

theorem run_of_nil (line : now.waiting = []) : run rules now = .ok now := by
  rw [run]
  split
  · rfl
  · rename_i first others nonempty
    rw [line] at nonempty
    contradiction

/-- A run deals with the first join and goes on from there. -/
theorem run_of_cons (line : now.waiting = first :: others) :
    run rules now = step rules first others now >>= run rules := by
  rw [run]
  split
  · rename_i empty
    rw [line] at empty
    contradiction
  · rename_i head tail again
    obtain ⟨rfl, rfl⟩ := List.cons.inj (line.symm.trans again)
    split
    · rename_i fault stuck
      rw [stuck]
      rfl
    · rename_i next stepped
      rw [stepped]
      rfl

/-- One turn of the line. -/
def Turn (rules : Rules) (now next : Progress) : Prop :=
  ∃ first others, now.waiting = first :: others ∧ step rules first others now = .ok next

/-- A state that comes up when the line goes on from another. -/
abbrev Reaches (rules : Rules) : Progress → Progress → Prop :=
  Relation.ReflTransGen (Turn rules)

theorem reaches_of_run (finished : run rules now = .ok done) :
    Reaches rules now done ∧ done.waiting = [] := by
  fun_induction run rules now with
  | case1 now line =>
    obtain rfl := Except.ok.inj finished
    exact ⟨.refl, line⟩
  | case2 now first others line fault stuck => contradiction
  | case3 now first others line next stepped ih =>
    obtain ⟨reached, ended⟩ := ih finished
    exact ⟨.head ⟨first, others, line, stepped⟩ reached, ended⟩

/-- What holds at the start and is preserved by every turn holds of whatever is reached. -/
theorem Reaches.preserves {invariant : Progress → Prop}
    (preserved : ∀ {now next : Progress} {first : Waiting} {others : List Waiting},
      now.waiting = first :: others → invariant now → step rules first others now = .ok next →
        invariant next)
    (holds : invariant now) (reached : Reaches rules now next) : invariant next := by
  induction reached with
  | refl => exact holds
  | tail _ turn ih =>
    obtain ⟨first, others, line, stepped⟩ := turn
    exact preserved line ih stepped

end Progress

theorem resolveJoins_eq_ok_iff {strict : Bool} {anchors : List TableRef} {entries : List JoinEntry}
    {resolution : Resolution} :
    resolveJoins strict anchors entries = .ok resolution ↔
      ∃ joins done, joins = entries.filterMap JoinEntry.descriptor? ∧
        Progress.run (.ofJoins strict anchors joins) (.start anchors joins) = .ok done ∧
        resolution =
          ⟨((entries.filterMap JoinEntry.raw?).map Text.trim).foldl Chain.pushVerbatim done.chain,
            done.history⟩ := by
  rw [resolveJoins, bind_eq_ok_iff]
  simp only [pure_eq_ok_iff, exists_and_left, exists_eq_left]
  rfl

end SelectCompiler
