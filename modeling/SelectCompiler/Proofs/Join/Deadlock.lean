import Mathlib.Control.Monad.Basic
import SelectCompiler.Proofs.Join.Schedule
import SelectCompiler.Proofs.Join.Strictness

/-!
When the line gives up. A join is forced, or is a fault, after it has been sent back more often than
there are joins. By then the line has gone round once without settling anybody, and from there on
the chain stays as it is: nobody in the line finds a place.
-/

namespace SelectCompiler

namespace Progress

/-- Nobody in the line finds a place. -/
def Deadlocked (known : List String) (now : Progress) : Prop :=
  ∀ entry ∈ now.waiting, now.chain.place known entry.join = .wait

/-- The line gives up for the first time. The first join has been sent back more often than there
are joins, and none of those that are not settled finds a place, itself included. -/
structure GivesUp (strict : Bool) (anchors : List TableRef) (joins : List Join) (first : Waiting)
    (now : Progress) : Prop where
  reached : Reaches (.ofJoins strict anchors joins) (start anchors joins) now
  unforced : firstForced? now.history = none
  next : now.waiting.head? = some first
  spent : joins.length < first.postponed
  divided : (settled now.history ++ now.waiting.map Waiting.join).Perm joins
  deadlocked : now.Deadlocked (knownKeys anchors joins)

variable {rules : Rules} {first : Waiting} {others : List Waiting} {now next last : Progress}
  {anchors : List TableRef} {joins : List Join} {join : Join} {known : List String}
  {history : List Event} {fault : Error} {strict : Bool}

/-- Whoever is sent back leaves a deadlock as it is. -/
theorem Deadlocked.postpone (deadlocked : now.Deadlocked known)
    (line : now.waiting = first :: others) (count : Nat) :
    (Progress.mk (others ++ [⟨first.join, count⟩]) now.chain history).Deadlocked known := by
  intro entry member
  rcases List.mem_append.mp member with waiting | back
  · exact deadlocked entry (by simp [line, waiting])
  · rw [List.mem_singleton.mp back]
    exact deadlocked first (by simp [line])

/-- As long as nothing has been forced the line goes round, and every round but the last has settled
a join, unless nobody can be placed any more. -/
structure Rotates (known : List String) (anchors : List TableRef) (joins : List Join)
    (now : Progress) : Prop where
  accounted : now.Accounted anchors joins
  inRound : firstForced? now.history = none → now.Deadlocked known ∨ now.Rounds known anchors joins

namespace Rotates

theorem start (known : List String) (anchors : List TableRef) (joins : List Join) :
    (start anchors joins).Rotates known anchors joins where
  accounted := .start anchors joins
  inRound _ := .inr (.start known anchors joins)

/-- If there is no deadlock whoever comes first is at the front of a round. -/
theorem exists_front (rotates : now.Rotates known anchors joins)
    (unforced : firstForced? now.history = none) (line : now.waiting = first :: others) :
    now.Deadlocked known ∨
      ∃ front back round, now.Round known (first :: front) back round ∧ others = front ++ back := by
  by_cases deadlocked : now.Deadlocked known
  · exact .inl deadlocked
  · have rounds := (rotates.inRound unforced).resolve_left deadlocked
    refine .inr (rounds.exists_front ?_ line)
    simpa only [Deadlocked, not_forall, exists_prop] using deadlocked

theorem step (same : rules.known = known) (line : now.waiting = first :: others)
    (rotates : now.Rotates known anchors joins) (stepped : step rules first others now = .ok next) :
    next.Rotates known anchors joins where
  accounted := rotates.accounted.step line stepped
  inRound := by
    intro unforced
    have accounted := rotates.accounted.step line stepped
    have before : firstForced? now.history = none := by
      by_contra forced
      obtain ⟨join, found⟩ := Option.ne_none_iff_exists'.mp forced
      rw [firstForced?_step found stepped] at unforced
      contradiction
    subst same
    rcases step_eq_ok_iff.mp stepped with ⟨waits, _, rfl⟩ | ⟨_, _, _, rfl⟩ | ⟨placed, rfl⟩
    · rcases rotates.exists_front before line with deadlocked | ⟨front, back, round, inRound, rfl⟩
      · exact .inl (deadlocked.postpone line _)
      · exact .inr ⟨accounted, front, _, round, inRound.postpone waits⟩
    · rw [firstForced?_concat, before] at unforced
      contradiction
    · rcases rotates.exists_front before line with deadlocked | ⟨front, back, round, inRound, rfl⟩
      · exact absurd (deadlocked first (by simp [line])) placed
      · exact .inr ⟨accounted, front, back, round, inRound.settle (.placed first.join) rfl⟩

/-- A join that is not settled has been sent back once for each that is, unless there is a
deadlock. -/
theorem deadlocked (rotates : now.Rotates known anchors joins)
    (unforced : firstForced? now.history = none) (line : now.waiting = first :: others)
    (spent : joins.length ≤ first.postponed) : now.Deadlocked known := by
  refine (rotates.exists_front unforced line).resolve_right ?_
  rintro ⟨front, back, round, inRound, _⟩
  have count := rotates.accounted.divided.length_eq
  rw [line, List.length_append, List.length_map, List.length_cons] at count
  have earlier := inRound.earlier
  have fresh := inRound.fresh first List.mem_cons_self
  omega

end Rotates

theorem rotates_of_reaches
    (reached : Reaches (.ofJoins strict anchors joins) (.start anchors joins) now) :
    now.Rotates (knownKeys anchors joins) anchors joins :=
  reached.preserves (Rotates.step rfl) (.start _ anchors joins)

/-- Nobody has been sent back too often before there is a deadlock. -/
theorem givesUp_of_reaches
    (reached : Reaches (.ofJoins strict anchors joins) (.start anchors joins) now)
    (unforced : firstForced? now.history = none) (line : now.waiting = first :: others)
    (spent : joins.length < first.postponed) : now.GivesUp strict anchors joins first where
  reached := reached
  unforced := unforced
  next := by rw [line, List.head?_cons]
  spent := spent
  divided := (rotates_of_reaches reached).accounted.divided
  deadlocked := (rotates_of_reaches reached).deadlocked unforced line (Nat.le_of_lt spent)

/-- A turn writes one more event into the history. -/
theorem exists_event_of_step (stepped : step rules first others now = .ok next) :
    ∃ event, next.history = now.history ++ [event] := by
  rcases step_eq_ok_iff.mp stepped with ⟨_, _, rfl⟩ | ⟨_, _, _, rfl⟩ | ⟨_, rfl⟩
  · exact ⟨_, rfl⟩
  · exact ⟨_, rfl⟩
  · exact ⟨_, rfl⟩

/-- If a join was forced on the way, the line was once at the first of them. -/
theorem Reaches.exists_firstForced (reached : Reaches rules now last)
    (unforced : firstForced? now.history = none) (forced : firstForced? last.history = some join) :
    ∃ between first others later, Reaches rules now between ∧
      firstForced? between.history = none ∧ between.waiting = first :: others ∧
      rules.budget < first.postponed ∧ first.join = join ∧
      last.history = between.history ++ .forced join :: later := by
  induction reached with
  | refl =>
    rw [unforced] at forced
    contradiction
  | @tail middle last reached turn ih =>
    obtain ⟨first, others, line, stepped⟩ := turn
    cases found : firstForced? middle.history with
    | some other =>
      have same := (firstForced?_step found stepped).symm.trans forced
      obtain rfl := Option.some.inj same
      obtain ⟨between, entry, rest, later, earlier, calm, waiting, spent, named, split⟩ := ih found
      obtain ⟨event, grown⟩ := exists_event_of_step stepped
      refine ⟨between, entry, rest, later ++ [event], earlier, calm, waiting, spent, named, ?_⟩
      rw [grown, split, List.append_assoc, List.cons_append]
    | none =>
      rcases step_eq_ok_iff.mp stepped with ⟨_, _, rfl⟩ | ⟨_, late, _, rfl⟩ | ⟨_, rfl⟩
      · rw [firstForced?_concat, found] at forced
        contradiction
      · rw [firstForced?_concat, found] at forced
        obtain rfl : first.join = join := Option.some.inj forced
        exact ⟨middle, first, others, [], reached, found, line, late, rfl, rfl⟩
      · rw [firstForced?_concat, found] at forced
        contradiction

theorem step_eq_error_iff :
    step rules first others now = .error fault ↔
      now.chain.place rules.known first.join = .wait ∧ rules.budget < first.postponed ∧
        rules.strict = true ∧ fault = .unresolvedJoin first.join.sql first.postponed := by
  unfold step
  split
  · rename_i waits
    rw [waits]
    grind
  · rename_i place found
    grind

/-- A run that ends in a fault was at the turn that is one. -/
theorem exists_fault_of_run (failed : run rules now = .error fault) :
    ∃ last first others, Reaches rules now last ∧ last.waiting = first :: others ∧
      step rules first others last = .error fault := by
  fun_induction run rules now with
  | case1 now line => contradiction
  | case2 now first others line other stuck =>
    rw [Except.error.inj failed] at stuck
    exact ⟨now, first, others, .refl, line, stuck⟩
  | case3 now first others line next stepped ih =>
    obtain ⟨last, entry, rest, reached, waiting, stuck⟩ := ih failed
    exact ⟨last, entry, rest, .head ⟨first, others, line, stepped⟩ reached, waiting, stuck⟩

/-- Under strict rules nothing is ever forced. -/
theorem unforced_of_reaches (strictly : rules.strict = true) (reached : Reaches rules now last)
    (unforced : firstForced? now.history = none) : firstForced? last.history = none := by
  induction reached with
  | refl => exact unforced
  | tail _ turn ih =>
    obtain ⟨first, others, _, stepped⟩ := turn
    rcases step_eq_ok_iff.mp stepped with ⟨_, _, rfl⟩ | ⟨_, _, lenient, _⟩ | ⟨_, rfl⟩
    · rw [firstForced?_concat, ih]
      rfl
    · rw [strictly] at lenient
      contradiction
    · rw [firstForced?_concat, ih]
      rfl

end Progress

open Progress in
/-- Joins are forced, or refused, only in a deadlock. As long as nothing has been forced, whoever is
first in the line and has been sent back more often than there are joins finds no place, and neither
does anybody else who is not settled. This is how things stand at the first join that is forced, and
where there is no force at the one that the fault names. -/
theorem resolveJoins_gives_up_deadlocked (strict : Bool) (anchors : List TableRef)
    (entries : List JoinEntry) :
    (∀ (now : Progress) (first : Waiting) (others : List Waiting),
      Reaches (.ofJoins strict anchors (entries.filterMap JoinEntry.descriptor?))
          (.start anchors (entries.filterMap JoinEntry.descriptor?)) now →
        firstForced? now.history = none → now.waiting = first :: others →
          (entries.filterMap JoinEntry.descriptor?).length < first.postponed →
            now.Deadlocked (knownKeys anchors (entries.filterMap JoinEntry.descriptor?))) ∧
    (∀ resolution join, resolveJoins strict anchors entries = .ok resolution →
      firstForced? resolution.history = some join →
        ∃ (now : Progress) (first : Waiting) (later : List Event),
          now.GivesUp strict anchors (entries.filterMap JoinEntry.descriptor?) first ∧
            first.join = join ∧ resolution.history = now.history ++ .forced join :: later) ∧
    ∀ fault, resolveJoins strict anchors entries = .error fault →
      ∃ (now : Progress) (first : Waiting),
        now.GivesUp strict anchors (entries.filterMap JoinEntry.descriptor?) first ∧
          fault = .unresolvedJoin first.join.sql first.postponed := by
  refine ⟨?_, ?_, ?_⟩
  · intro now first others reached unforced line spent
    exact (givesUp_of_reaches reached unforced line spent).deadlocked
  · intro resolution join resolved forced
    obtain ⟨done, reached, _, same, _⟩ := resolveJoins_cases resolved
    rw [same] at forced
    obtain ⟨now, first, others, later, earlier, unforced, line, spent, named, split⟩ :=
      reached.exists_firstForced rfl forced
    exact ⟨now, first, later, givesUp_of_reaches earlier unforced line spent, named,
      same.trans split⟩
  · intro fault failed
    rw [resolveJoins_eq_map] at failed
    cases ended : run (.ofJoins strict anchors (entries.filterMap JoinEntry.descriptor?))
        (.start anchors (entries.filterMap JoinEntry.descriptor?)) with
    | ok done =>
      rw [ended] at failed
      contradiction
    | error other =>
      rw [ended] at failed
      obtain rfl := Except.error.inj failed
      obtain ⟨now, first, others, reached, line, stuck⟩ := exists_fault_of_run ended
      obtain ⟨_, spent, strictly, named⟩ := step_eq_error_iff.mp stuck
      have unforced := unforced_of_reaches strictly reached rfl
      exact ⟨now, first, givesUp_of_reaches reached unforced line spent, named⟩

namespace LeaningBeams

def sites : TableRef := .ofText "sites"

def beams : Join := .unary .inner "beams b" "b.site = sites.id AND b.post = p.id"

def posts : Join := .unary .left "posts AS p" "p.beam = b.id"

def roofs : Join := .unary .left "roofs" "roofs.site = sites.id"

/-- The first two joins lean on each other, the third one stands by itself. -/
def entries : List JoinEntry := [.descriptor beams, .descriptor posts, .descriptor roofs]

def chain : Chain where
  links := [.table "sites", .step .left "roofs" ["roofs.site = sites.id"],
    .step .inner "beams b" ["b.site = sites.id AND b.post = p.id"],
    .step .left "posts AS p" ["p.beam = b.id"]]
  introduced := [("sites", 0), ("roofs", 1), ("b", 2), ("p", 3)]
  residual := []

def history : List Event :=
  [.postponed beams, .postponed posts, .placed roofs]
    ++ (List.replicate 3 [.postponed beams, .postponed posts]).flatten
    ++ [.forced beams, .placed posts]

end LeaningBeams

open LeaningBeams in
theorem resolveJoins_gives_up_deadlocked_leaningBeams :
    resolveJoins false [sites] entries = .ok ⟨chain, history⟩ ∧
      firstForced? history = some beams ∧
      resolveJoins true [sites] entries = .error (.unresolvedJoin beams.sql 4) ∧
      (∃ (now : Progress) (first : Waiting) (later : List Event),
        now.GivesUp false [sites] [beams, posts, roofs] first ∧ first.join = beams ∧
          history = now.history ++ .forced beams :: later) ∧
      ∃ (now : Progress) (first : Waiting),
        now.GivesUp true [sites] [beams, posts, roofs] first ∧
          beams.sql = first.join.sql ∧ first.postponed = 4 := by
  have resolved : resolveJoins false [sites] entries = .ok ⟨chain, history⟩ := by decide +kernel
  have refused : resolveJoins true [sites] entries = .error (.unresolvedJoin beams.sql 4) := by
    decide +kernel
  have leniently := resolveJoins_gives_up_deadlocked false [sites] entries
  have strictly := resolveJoins_gives_up_deadlocked true [sites] entries
  refine ⟨resolved, rfl, refused, leniently.2.1 _ beams resolved rfl, ?_⟩
  obtain ⟨now, first, givesUp, fault⟩ := strictly.2.2 _ refused
  obtain ⟨sql, count⟩ := Error.unresolvedJoin.inj fault
  exact ⟨now, first, givesUp, sql, count.symm⟩

end SelectCompiler
