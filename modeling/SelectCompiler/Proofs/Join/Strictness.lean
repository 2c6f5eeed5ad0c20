import SelectCompiler.Proofs.Join.Account

/-!
The same line under strict and under lenient rules. Both runs take the same turns until a join has
to be forced; there the lenient one goes on, and the strict one ends with a fault that names this
join. So a strict run adds nothing to what a lenient one finds.
-/

namespace SelectCompiler

/-- The same rules with force allowed or not. -/
def Rules.withStrict (strict : Bool) (rules : Rules) : Rules :=
  { rules with strict := strict }

variable {anchors : List TableRef} {joins : List Join} {history : List Event} {join : Join}

/-- Something was forced if and only if there is a first join that was forced. -/
theorem countP_isForced_eq_zero_iff :
    history.countP Event.isForced = 0 ↔ firstForced? history = none := by
  rw [List.countP_eq_zero, firstForced?, List.findSome?_eq_none_iff]
  constructor
  · intro unforced event member
    have calm := unforced event member
    cases event with
    | placed join => rfl
    | postponed join => rfl
    | forced join => exact absurd rfl calm
  · intro unforced event member isForced
    cases event with
    | placed join => contradiction
    | postponed join => contradiction
    | forced join =>
      have calm := unforced (.forced join) member
      contradiction

namespace Progress

variable {rules : Rules} {first : Waiting} {others : List Waiting} {now next done : Progress}
  {fault : Error}

/-- No join has been sent back more often than it takes to be stuck. -/
def Patient (budget : Nat) (now : Progress) : Prop :=
  ∀ entry ∈ now.waiting, entry.postponed ≤ budget + 1

theorem Patient.start (budget : Nat) (anchors : List TableRef) (joins : List Join) :
    (start anchors joins).Patient budget := by
  intro entry member
  obtain ⟨join, _, rfl⟩ := List.mem_map.mp member
  exact Nat.zero_le _

theorem Patient.step {budget : Nat} (patient : now.Patient budget)
    (line : now.waiting = first :: others) (stepped : step rules first others now = .ok next)
    (bounded : rules.budget = budget) : next.Patient budget := by
  have rest : ∀ entry ∈ others, entry.postponed ≤ budget + 1 := by
    intro entry member
    apply patient
    rw [line]
    exact List.mem_cons_of_mem first member
  rcases step_eq_ok_iff.mp stepped with ⟨_, early, rfl⟩ | ⟨_, _, _, rfl⟩ | ⟨_, rfl⟩
  · intro entry member
    rcases List.mem_append.mp member with old | sent
    · exact rest entry old
    · rw [List.mem_singleton.mp sent, ← bounded]
      exact Nat.succ_le_succ early
  · exact rest
  · exact rest

/-- A lenient turn is never a fault. -/
theorem exists_lenient_step (rules : Rules) (first : Waiting) (others : List Waiting)
    (now : Progress) : ∃ next, step (rules.withStrict false) first others now = .ok next := by
  by_cases waits : now.chain.place rules.known first.join = .wait
  · by_cases early : first.postponed ≤ rules.budget
    · exact ⟨_, step_eq_ok_iff.mpr (.inl ⟨waits, early, rfl⟩)⟩
    · exact ⟨_, step_eq_ok_iff.mpr (.inr (.inl ⟨waits, Nat.lt_of_not_le early, rfl, rfl⟩))⟩
  · exact ⟨_, step_eq_ok_iff.mpr (.inr (.inr ⟨waits, rfl⟩))⟩

theorem exists_lenient_run (rules : Rules) (now : Progress) :
    ∃ done, run (rules.withStrict false) now = .ok done := by
  have advances : ∀ {now : Progress} {first : Waiting} {others : List Waiting},
      now.waiting = first :: others → True →
        ∃ next, step (rules.withStrict false) first others now = .ok next ∧ True := by
    intro now first others _ _
    obtain ⟨next, stepped⟩ := exists_lenient_step rules first others now
    exact ⟨next, stepped, trivial⟩
  exact run_succeeds advances trivial

/-- What a turn does under strict rules, told by what it does under lenient ones: the same, unless
it forces a join that has waited too long. -/
theorem strict_step_cases (stepped : step (rules.withStrict false) first others now = .ok next) :
    (firstForced? next.history = firstForced? now.history ∧
      step (rules.withStrict true) first others now = .ok next) ∨
    (rules.budget < first.postponed ∧ next.history = now.history ++ [.forced first.join] ∧
      step (rules.withStrict true) first others now =
        .error (.unresolvedJoin first.join.sql first.postponed)) := by
  rcases step_eq_ok_iff.mp stepped with ⟨waits, early, rfl⟩ | ⟨waits, late, _, rfl⟩ | ⟨placed, rfl⟩
  · left
    constructor
    · rw [firstForced?_concat]
      exact Option.or_none
    · exact step_eq_ok_iff.mpr (.inl ⟨waits, early, rfl⟩)
  · right
    refine ⟨late, rfl, ?_⟩
    have waits : now.chain.place (rules.withStrict true).known first.join = .wait := waits
    have late : ¬first.postponed ≤ (rules.withStrict true).budget := Nat.not_le_of_lt late
    simp only [step, waits, if_neg late]
    rfl
  · left
    constructor
    · rw [firstForced?_concat]
      exact Option.or_none
    · exact step_eq_ok_iff.mpr (.inr (.inr ⟨placed, rfl⟩))

/-- Which join was forced first never changes again. -/
theorem firstForced?_step (forced : firstForced? now.history = some join)
    (stepped : step rules first others now = .ok next) :
    firstForced? next.history = some join := by
  rcases step_eq_ok_iff.mp stepped with ⟨_, _, rfl⟩ | ⟨_, _, _, rfl⟩ | ⟨_, rfl⟩
  all_goals exact firstForced?_concat_of_some forced

theorem firstForced?_run (forced : firstForced? now.history = some join)
    (finished : run rules now = .ok done) : firstForced? done.history = some join :=
  @run_preserves rules now done (firstForced? ·.history = some join)
    (fun _ => firstForced?_step) forced finished

/-- How a strict run ends, told by how the lenient one does. -/
def strictOutcome (budget : Nat) (done : Progress) : Except Error Progress :=
  match firstForced? done.history with
  | none => .ok done
  | some join => .error (.unresolvedJoin join.sql (budget + 1))

/-- Both runs are in step until the first join is forced, and there the strict one ends. -/
theorem run_strict_eq (patient : now.Patient rules.budget)
    (unforced : firstForced? now.history = none)
    (finished : run (rules.withStrict false) now = .ok done) :
    run (rules.withStrict true) now = strictOutcome rules.budget done := by
  fun_induction run (rules.withStrict false) now with
  | case1 now line =>
    obtain rfl := Except.ok.inj finished
    rw [run_of_nil line, strictOutcome, unforced]
  | case2 now first others line fault stuck => contradiction
  | case3 now first others line next stepped ih =>
    rcases strict_step_cases stepped with ⟨same, again⟩ | ⟨late, forced, stuck⟩
    · rw [run_of_cons line, again]
      exact ih (patient.step line stepped rfl) (same.trans unforced) finished
    · have last : first.postponed = rules.budget + 1 := by
        have most := patient first (by simp [line])
        omega
      have named : firstForced? next.history = some first.join := by
        rw [forced, firstForced?_concat, unforced]
        rfl
      rw [run_of_cons line, stuck, strictOutcome, firstForced?_run named finished, last]
      rfl

end Progress

/-- The resolution in which a line ends, with the raw texts behind all links. -/
def Progress.resolution (entries : List JoinEntry) (done : Progress) : Resolution :=
  ⟨((entries.filterMap JoinEntry.raw?).map Text.trim).foldl Chain.pushVerbatim done.chain,
    done.history⟩

theorem resolveJoins_eq_map (strict : Bool) (anchors : List TableRef) (entries : List JoinEntry) :
    resolveJoins strict anchors entries =
      (Progress.run (.ofJoins strict anchors (entries.filterMap JoinEntry.descriptor?))
        (.start anchors (entries.filterMap JoinEntry.descriptor?))).map
          (Progress.resolution entries) := by
  change (Progress.run (.ofJoins strict anchors (entries.filterMap JoinEntry.descriptor?))
    (.start anchors (entries.filterMap JoinEntry.descriptor?)) >>= fun done =>
      pure (Progress.resolution entries done)) = _
  cases Progress.run (.ofJoins strict anchors (entries.filterMap JoinEntry.descriptor?))
    (.start anchors (entries.filterMap JoinEntry.descriptor?)) with
  | error fault => rfl
  | ok done => rfl

/-- A resolution that may force joins always succeeds. One that may not ends alike if no join was
forced, and otherwise with a fault that names the first one. -/
theorem resolveJoins_lenient (anchors : List TableRef) (entries : List JoinEntry) :
    ∃ resolution, resolveJoins false anchors entries = .ok resolution ∧
      resolveJoins true anchors entries =
        match firstForced? resolution.history with
        | none => .ok resolution
        | some join =>
          .error (.unresolvedJoin join.sql
            ((entries.filterMap JoinEntry.descriptor?).length + 1)) := by
  have lenient := Progress.exists_lenient_run
    (.ofJoins true anchors (entries.filterMap JoinEntry.descriptor?))
    (.start anchors (entries.filterMap JoinEntry.descriptor?))
  obtain ⟨done, finished⟩ := lenient
  have strictly := Progress.run_strict_eq (.start _ anchors _) rfl finished
  refine ⟨done.resolution entries, ?_, ?_⟩
  · rw [resolveJoins_eq_map]
    exact congrArg (Except.map _) finished
  · rw [resolveJoins_eq_map]
    refine (congrArg (Except.map _) strictly).trans ?_
    have same : (done.resolution entries).history = done.history := rfl
    rw [Progress.strictOutcome, same]
    cases firstForced? done.history with
    | none => rfl
    | some join => rfl

end SelectCompiler
