import Mathlib.Data.List.Flatten
import Mathlib.Data.List.Perm.Lattice
import SelectCompiler.Proofs.Join.Account

/-!
Where the conditions of joins end up. Every condition that says anything is in one place: with a
step, in the text of the join that opened the chain, or left over for want of a step to carry it.
-/

namespace SelectCompiler

/-- The condition of a join, if it says anything. -/
def Join.conditions (join : Join) : List String :=
  if join.condition.isEmpty then [] else [join.condition]

/-- The condition in a text that repeats the given join. -/
def Link.openingConditions (opening : Option Join) (link : Link) : List String :=
  (link.opening? opening).elim [] Join.conditions

/-- The conditions of a step, or the one in the text of the given join. -/
def Link.carried (opening : Option Join) (link : Link) : List String :=
  link.conditions ++ link.openingConditions opening

namespace Chain

variable {opening : Option Join} {chain next : Chain} {known : List String} {event : Event}
  {join : Join} {table : TableRef} {link : Link} {key condition : String} {position : Nat}

/-- All conditions that a chain holds, the left-over ones included. -/
def carried (opening : Option Join) (chain : Chain) : List String :=
  chain.links.flatMap (Link.carried opening) ++ chain.residual

theorem carried_push :
    ((chain.push link key).carried opening).Perm
      (chain.carried opening ++ link.carried opening) := by
  have residual : (chain.push link key).residual = chain.residual := rfl
  rw [carried, carried, links_push, residual, List.flatMap_append, List.flatMap_singleton,
    List.append_assoc, List.append_assoc]
  exact List.perm_append_comm.append_left _

theorem carried_pushTable :
    ((chain.pushTable table).carried opening).Perm (chain.carried opening) := by
  unfold pushTable
  split
  · exact .refl _
  · exact carried_push.trans (.of_eq (List.append_nil _))

theorem carried_pushStep :
    ((chain.pushStep join table).carried opening).Perm
      (chain.carried opening ++ join.conditions) :=
  carried_push.trans (.of_eq (congrArg _ (List.append_nil _)))

theorem carried_attach :
    ((chain.attach position join.condition).carried opening).Perm
      (chain.carried opening ++ join.conditions) := by
  unfold attach Join.conditions
  split
  · simp
  · split
    · rename_i kind table conditions found
      obtain ⟨inside, here⟩ := List.getElem?_eq_some_iff.mp found
      obtain ⟨before, after, split, _, replaced⟩ :=
        @List.exists_of_set _ position (.step kind table (conditions ++ [join.condition])) _ inside
      rw [here] at split
      -- The new condition stands behind those of its step and moves past what comes later.
      have moved :
          ([join.condition] ++ (after.flatMap (Link.carried opening) ++ chain.residual)).Perm
          (after.flatMap (Link.carried opening) ++ chain.residual ++ [join.condition]) :=
        List.perm_append_comm
      rw [carried, carried]
      dsimp only
      rw [replaced, split]
      simpa [Link.carried, Link.conditions, Link.openingConditions, Link.opening?]
        using (moved.append_left conditions).append_left (before.flatMap (Link.carried opening))
    · simp [carried]

/-- Which join opens the chain matters only to a chain with verbatim text in it. -/
theorem carried_congr {other : Option Join}
    (same : ∀ sql, .verbatim sql ∈ chain.links → other = opening) :
    chain.carried other = chain.carried opening := by
  unfold carried
  congr 1
  refine List.flatMap_congr fun link member => ?_
  cases link with
  | table sql => rfl
  | step kind sql conditions => rfl
  | verbatim sql => rw [same sql member]

/-- A settled join adds its condition to those of the chain. -/
theorem Settles.carried (changed : chain.Settles known join event next)
    (first : event = .forced join → chain.isEmpty = true → opening = some join) :
    (next.carried opening).Perm (chain.carried opening ++ join.conditions) := by
  cases changed with
  | pair => exact carried_pushStep.trans (carried_pushTable.append_right _)
  | step => exact carried_pushStep
  | merge => exact carried_attach
  | opening forced alone empty _ =>
    have single : join.isBinary = false := by simp [Join.isBinary, alone]
    have own : (Link.verbatim join.sql).carried opening = join.conditions := by
      rw [Link.carried, Link.openingConditions, first forced empty, Link.opening?_verbatim single]
      rfl
    exact carried_push.trans (.of_eq (by rw [own]))

/-- A condition is left over only if what it is attached to is no step. -/
theorem residual_attach_cases (chain : Chain) (position : Nat) (condition : String) :
    (chain.attach position condition).residual = chain.residual ∨
      ((chain.attach position condition).residual = chain.residual ++ [condition] ∧
        ∀ kind table conditions,
          chain.links[position]? ≠ some (.step kind table conditions)) := by
  unfold attach
  split
  · exact .inl rfl
  · split
    · exact .inl rfl
    · rename_i other
      exact .inr ⟨rfl, fun kind table conditions => other kind table conditions⟩

theorem residual_pushTable : (chain.pushTable table).residual = chain.residual := by
  unfold pushTable
  split <;> rfl

/-- A settled join leaves its condition over only if that was to go to a plain table or to verbatim
text. -/
theorem Settles.residual_cases (changed : chain.Settles known join event next)
    (settled : event.settled? = some join) (inRange : chain.InRange) :
    next.residual = chain.residual ∨
      (next.residual = chain.residual ++ [join.condition] ∧
        ∃ link, chain.links[chain.latest (event.anchorKeys known)]? = some link ∧
          ∀ kind table conditions, link ≠ .step kind table conditions) := by
  cases changed with
  | pair => exact .inl residual_pushTable
  | step => exact .inl rfl
  | opening => exact .inl rfl
  | merge present =>
    obtain same | ⟨grown, plain⟩ :=
      residual_attach_cases chain (chain.latest (event.anchorKeys known)) join.condition
    · exact .inl same
    · have own : join.right.key ∈ event.anchorKeys known := by
        cases event <;> simp_all [Event.anchorKeys, Event.settled?, Join.tables]
      have there := inRange.latest_lt own (present join.right (by simp [Join.tables]))
      refine .inr ⟨grown, _, List.getElem?_eq_getElem there, ?_⟩
      intro kind table conditions isStep
      exact plain kind table conditions (by rw [List.getElem?_eq_getElem there, isStep])

end Chain

namespace Progress

variable {rules : Rules} {first : Waiting} {others : List Waiting} {now next : Progress}
  {anchors : List TableRef} {joins : List Join}

/-- The account of a run with all conditions of the settled joins in it. -/
structure Carries (anchors : List TableRef) (joins : List Join) (now : Progress) : Prop where
  accounted : now.Accounted anchors joins
  carried : (now.chain.carried (firstForced? now.history)).Perm
    ((settled now.history).flatMap Join.conditions)

theorem Carries.step (line : now.waiting = first :: others) (carries : now.Carries anchors joins)
    (stepped : step rules first others now = .ok next) : next.Carries anchors joins := by
  have unchanged (event : Event) :
      now.chain.carried (firstForced? (now.history ++ [event])) =
        now.chain.carried (firstForced? now.history) :=
    Chain.carried_congr fun _ member => carries.accounted.firstForced?_kept event member
  refine ⟨carries.accounted.step line stepped, ?_⟩
  obtain ⟨_, _, rfl⟩ | ⟨event, chain, settles, changed, rfl⟩ :=
    step_cases carries.accounted.inRange stepped
  · rw [unchanged, settled_concat_postponed]
    exact carries.carried
  · have opens : event = .forced first.join → now.chain.isEmpty = true →
        firstForced? (now.history ++ [event]) = some first.join := by
      rintro rfl empty
      exact carries.accounted.firstForced?_opening empty first.join
    rw [settled_concat_of_settled settles, List.flatMap_append, List.flatMap_singleton]
    refine (changed.carried opens).trans ?_
    rw [unchanged]
    exact carries.carried.append_right _

theorem Carries.start : (start anchors joins).Carries anchors joins where
  accounted := .start anchors joins
  carried := by
    have none : (Progress.start anchors joins).chain.carried (firstForced? []) = [] := by
      refine Chain.ofTables_preserves (fun chain => chain.carried none = []) rfl ?_
      intro chain table _ nothing
      exact (Chain.carried_pushTable.trans (.of_eq nothing)).eq_nil
    exact .of_eq none

end Progress

/-- The conditions of the joins are those that a resolution carries in front of the raw texts. -/
theorem Resolution.carried_of_resolved {strict : Bool} {anchors : List TableRef}
    {entries : List JoinEntry} {resolution : Resolution}
    (resolved : resolveJoins strict anchors entries = .ok resolution) :
    ∃ ordered, resolution.chain.links =
        ordered ++ ((entries.filterMap JoinEntry.raw?).map Text.trim).map Link.verbatim ∧
      ((entries.filterMap JoinEntry.descriptor?).flatMap Join.conditions).Perm
        (ordered.flatMap (Link.carried (firstForced? resolution.history)) ++
          resolution.residual) := by
  obtain ⟨done, reached, ended, history, chain⟩ := resolveJoins_cases resolved
  have carries := reached.preserves Progress.Carries.step .start
  refine ⟨done.chain.links, by rw [chain], ?_⟩
  rw [history, residual, chain]
  exact ((carries.accounted.settled_perm ended).symm.flatMap_right _).trans carries.carried.symm

end SelectCompiler
