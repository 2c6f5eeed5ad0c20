import Mathlib.Control.Monad.Basic
import SelectCompiler.Proofs.Join.Strictness
import SelectCompiler.Proofs.Statement.Moved

/-!
What strict settings change. A resolution without force is the same with and without them, one that
needs force becomes a fault, and a query that a statement has under strict settings is the query
that it has under lenient ones.
-/

namespace SelectCompiler

namespace Statement

variable {statement : Statement} {query : Query}

/-- The statement with other settings for its joins. -/
def withJoinSettings (statement : Statement) (strict allowRaw : Bool) : Statement :=
  { statement with strictJoins := strict, allowRawJoins := allowRaw }

/-- What does not look at the settings for joins comes out the same under others. -/
theorem compile_withJoinSettings {strict allowRaw : Bool}
    (compiled : (statement.withJoinSettings strict allowRaw).compile = .ok query) :
    (statement.withJoinSettings false true).compile = .ok query := by
  obtain ⟨columns, resolution, clause?, selected, source, _, resolved, present, filtered, rfl⟩ :=
    compile_eq_ok_iff.mp compiled
  have lenient : resolveJoins false statement.tables statement.joins = .ok resolution := by
    cases strict with
    | false => exact resolved
    | true =>
      obtain ⟨other, found, strictly⟩ := resolveJoins_lenient statement.tables statement.joins
      have resolved : resolveJoins true statement.tables statement.joins = .ok resolution :=
        resolved
      rw [strictly] at resolved
      cases forced : firstForced? other.history with
      | none =>
        rw [forced] at resolved
        rw [found, ← Except.ok.inj resolved]
      | some join =>
        rw [forced] at resolved
        contradiction
  exact compile_eq_ok_iff.mpr
    ⟨columns, resolution, clause?, selected, source, rfl, lenient, present, filtered, rfl⟩

end Statement

/-- Lenient settings always order the joins. Strict ones order them the same way if no join has to
be forced, and otherwise they name the first that has to be, sent back once more than there are
joins. So a statement that has a query under some settings for its joins has the same query under
lenient ones. -/
theorem strictness_only_rejects :
    (∀ (anchors : List TableRef) (entries : List JoinEntry), ∃ resolution,
      resolveJoins false anchors entries = .ok resolution ∧
      (∀ other, resolveJoins true anchors entries = .ok other ↔
        other = resolution ∧ resolution.forced = 0) ∧
      (0 < resolution.forced → ∃ join, firstForced? resolution.history = some join ∧
        resolveJoins true anchors entries = .error (.unresolvedJoin join.sql
          ((entries.filterMap JoinEntry.descriptor?).length + 1)))) ∧
    ∀ (statement : Statement) (strict allowRaw : Bool) (query : Query),
      (statement.withJoinSettings strict allowRaw).compile = .ok query →
        (statement.withJoinSettings false true).compile = .ok query := by
  constructor
  · intro anchors entries
    obtain ⟨resolution, found, strictly⟩ := resolveJoins_lenient anchors entries
    refine ⟨resolution, found, ?_, ?_⟩
    · intro other
      rw [strictly, Resolution.forced, countP_isForced_eq_zero_iff]
      cases firstForced? resolution.history with
      | none => simp [eq_comm]
      | some join => simp
    · intro forced
      cases named : firstForced? resolution.history with
      | none =>
        have none : resolution.forced = 0 := countP_isForced_eq_zero_iff.mpr named
        omega
      | some join =>
        rw [named] at strictly
        exact ⟨join, rfl, strictly⟩
  · intro statement strict allowRaw query compiled
    exact Statement.compile_withJoinSettings compiled

namespace MutualJoins

def users : TableRef := .ofText "users u"

def roles : Join := .unary .inner "roles" "roles.id = grants.role AND grants.user = u.id"

def grants : Join := .unary .left "grants" "grants.role = roles.id"

/-- Each join waits for the table of the other. -/
def entries : List JoinEntry := [.descriptor roles, .descriptor grants]

def resolution : Resolution where
  chain :=
    { links := [.table "users u", .step .inner "roles" [roles.condition],
        .step .left "grants" [grants.condition]]
      introduced := [("u", 0), ("roles", 1), ("grants", 2)]
      residual := [] }
  history := [.postponed roles, .postponed grants, .postponed roles, .postponed grants,
    .postponed roles, .postponed grants, .forced roles, .placed grants]

/-- The first join waits once for the second. -/
def statement : Statement where
  selection := some (.columns [("u", [.name "id"])])
  tables := [users]
  joins := [.descriptor grants, .descriptor (.unary .inner "roles" "roles.user = u.id")]

def query : Query where
  sql := "SELECT u.id FROM users u INNER JOIN roles ON roles.user = u.id " ++
    "LEFT JOIN grants ON grants.role = roles.id"
  parameters := []
  next := 0

end MutualJoins

open MutualJoins in
theorem strictness_only_rejects_mutualJoins :
    resolveJoins false [users] entries = .ok resolution ∧ resolution.forced = 1 ∧
      resolveJoins true [users] entries = .error (.unresolvedJoin
        "INNER JOIN roles ON roles.id = grants.role AND grants.user = u.id" 3) ∧
      (statement.withJoinSettings true false).compile = .ok query ∧
      (statement.withJoinSettings false true).compile = .ok query := by
  have lenient : resolveJoins false [users] entries = .ok resolution := by decide +kernel
  have once : resolution.forced = 1 := by decide
  have compiled : (statement.withJoinSettings true false).compile = .ok query := by
    decide +kernel
  obtain ⟨resolves, compiles⟩ := strictness_only_rejects
  obtain ⟨found, same, _, rejects⟩ := resolves [users] entries
  obtain rfl := Except.ok.inj (same.symm.trans lenient)
  obtain ⟨join, named, rejected⟩ := rejects (by omega)
  have first : firstForced? resolution.history = some roles := by decide
  obtain rfl := Option.some.inj (named.symm.trans first)
  exact ⟨lenient, once, rejected, compiled, compiles statement true false query compiled⟩

end SelectCompiler
