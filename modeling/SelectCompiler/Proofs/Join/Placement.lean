import SelectCompiler.Proofs.Join.Chain
import SelectCompiler.Join.Placement

/-!
When a join finds its place. Each of the three places is characterized by what the chain holds:
nothing at all, all of the join's tables, or all but the one that the join brings in.
-/

namespace SelectCompiler

namespace Join

variable {known : List String} {join : Join} {key : String}

theorem mem_dependencies_iff :
    key ∈ join.dependencies known ↔
      key ∈ qualifiers known join.condition ∧ key ∉ join.tables.map TableRef.key := by
  rw [dependencies, List.mem_filter, Bool.not_eq_true', ← Bool.not_eq_true, List.contains_iff_mem]

/-- A condition mentions the join's own tables and those that it depends on. -/
theorem own_or_dependency (mentioned : key ∈ qualifiers known join.condition) :
    (∃ table ∈ join.tables, table.key = key) ∨ key ∈ join.dependencies known := by
  by_cases own : key ∈ join.tables.map TableRef.key
  · exact .inl (List.mem_map.mp own)
  · exact .inr (mem_dependencies_iff.mpr ⟨mentioned, own⟩)

end Join

namespace Chain

variable {chain : Chain} {known : List String} {join : Join} {table : TableRef} {position : Nat}

/-- Every other table that the join's condition mentions is there. -/
def Supports (chain : Chain) (known : List String) (join : Join) : Prop :=
  ∀ key ∈ join.dependencies known, key ∈ chain.keys

instance : Decidable (chain.Supports known join) :=
  inferInstanceAs (Decidable (∀ key ∈ join.dependencies known, key ∈ chain.keys))

theorem supports_iff :
    (join.dependencies known).all chain.contains = true ↔ chain.Supports known join := by
  simp only [Supports, List.all_eq_true, contains_iff]

/-- The place of a join of one table, told by what is there. -/
theorem place_unary (unary : join.left = none) :
    chain.place known join =
      if chain.isEmpty = true ∨ ¬chain.Supports known join then .wait
      else if join.right.key ∈ chain.keys then
        .attach (chain.latest (join.right.key :: join.dependencies known))
      else .introduce join.right := by
  simp only [place, unary, ← supports_iff, ← contains_iff, Bool.or_eq_true, Bool.not_eq_true',
    Bool.not_eq_true]

theorem place_pair {left : TableRef} (pair : join.left = some left) :
    chain.place known join =
      if chain.isEmpty = true then if join.dependencies known = [] then .seed else .wait
      else if ¬chain.Supports known join then .wait
      else if left.key ∈ chain.keys then
        if join.right.key ∈ chain.keys then
          .attach (chain.latest (left.key :: join.right.key :: join.dependencies known))
        else .introduce join.right
      else if join.right.key ∈ chain.keys then .introduce left else .wait := by
  simp only [place, pair, ← supports_iff, ← contains_iff, List.isEmpty_iff]
  cases chain.contains left.key <;> cases chain.contains join.right.key <;> simp

theorem place_eq_seed_iff :
    chain.place known join = .seed ↔
      chain.isEmpty = true ∧ join.isBinary = true ∧ join.dependencies known = [] := by
  cases names : join.left with
  | none =>
    rw [place_unary names, Join.isBinary, names]
    grind
  | some left =>
    rw [place_pair names, Join.isBinary, names]
    grind

theorem place_eq_introduce_iff :
    chain.place known join = .introduce table ↔
      chain.isEmpty = false ∧ chain.Supports known join ∧ table ∈ join.tables ∧
        table.key ∉ chain.keys ∧
        (join.isBinary = true → ∃ other ∈ join.tables, other.key ∈ chain.keys) := by
  cases names : join.left with
  | none =>
    rw [place_unary names, Join.isBinary, Join.tables, names]
    grind
  | some left =>
    rw [place_pair names, Join.isBinary, Join.tables, names]
    grind

/-- A join brings in one table and finds its other one there. -/
theorem mem_keys_of_introduce {other : TableRef}
    (found : chain.place known join = .introduce table) (own : other ∈ join.tables) :
    other.key ∈ chain.keys ∨ other.key = table.key := by
  obtain ⟨_, _, member, absent, partner⟩ := place_eq_introduce_iff.mp found
  cases names : join.left with
  | none =>
    simp only [Join.tables, names, Option.toList_none, List.nil_append, List.mem_singleton]
      at own member
    rw [own, member]
    exact .inr rfl
  | some left =>
    simp only [Join.isBinary, Join.tables, names, Option.isSome_some, Option.toList_some,
      List.mem_append, List.mem_singleton] at own member partner
    obtain ⟨third, named, present⟩ := partner trivial
    have different : third ≠ table := fun same => absent (same ▸ present)
    by_cases same : other = table
    · exact .inr (congrArg TableRef.key same)
    · have : other = third := by grind
      exact .inl (this ▸ present)

theorem place_eq_attach_iff :
    chain.place known join = .attach position ↔
      chain.isEmpty = false ∧ chain.Supports known join ∧
        (∀ table ∈ join.tables, table.key ∈ chain.keys) ∧
        position = chain.latest (join.tables.map TableRef.key ++ join.dependencies known) := by
  cases names : join.left with
  | none =>
    rw [place_unary names, Join.tables, names]
    grind
  | some left =>
    rw [place_pair names, Join.tables, names]
    grind

end Chain

end SelectCompiler
