import SelectCompiler.Join.Chain

/-!
Positions in a chain. Each operation is described by the links it leaves behind and by the
positions it has recorded; a position once recorded never changes.
-/

namespace SelectCompiler

namespace Link

/-- The table that a link brings in, as its text names it. -/
def table? : Link → Option String
  | table sql => some sql
  | step _ sql _ => some sql
  | verbatim _ => none

/-- The conditions that a link carries. -/
def conditions : Link → List String
  | step _ _ conditions => conditions
  | _ => []

end Link

namespace Chain

variable {chain : Chain} {link : Link} {key other sql condition : String} {position : Nat}

theorem contains_iff : chain.contains key = true ↔ key ∈ chain.keys := List.contains_iff_mem

theorem not_contains_iff : chain.contains key = false ↔ key ∉ chain.keys := by
  rw [← Bool.not_eq_true, contains_iff]

theorem mem_keys_iff : key ∈ chain.keys ↔ ∃ position, chain.position? key = some position := by
  rw [← Option.isSome_iff_exists, position?, List.lookup_isSome_iff, keys, List.mem_map]
  constructor
  · rintro ⟨entry, member, rfl⟩
    exact ⟨entry, member, beq_self_eq_true _⟩
  · rintro ⟨entry, member, same⟩
    exact ⟨entry, member, (beq_iff_eq.mp same).symm⟩

theorem position?_eq_none_iff : chain.position? key = none ↔ key ∉ chain.keys := by
  rw [mem_keys_iff, ← Option.isSome_iff_exists, Bool.not_eq_true, Option.isSome_eq_false_iff,
    Option.isNone_iff_eq_none]

@[simp] theorem links_push : (chain.push link key).links = chain.links ++ [link] := rfl

theorem push_of_mem (present : key ∈ chain.keys) :
    chain.push link key = { chain with links := chain.links ++ [link] } := by
  rw [push, if_pos (contains_iff.mpr present)]

theorem push_of_not_mem (absent : key ∉ chain.keys) :
    chain.push link key =
      { chain with
        links := chain.links ++ [link]
        introduced := chain.introduced ++ [(key, chain.links.length)] } := by
  rw [push, not_contains_iff.mpr absent]
  rfl

theorem pushStep_of_not_mem {join : Join} {table : TableRef} (conditional : join.condition ≠ "")
    (absent : table.key ∉ chain.keys) :
    chain.pushStep join table =
      { chain with
        links := chain.links ++ [.step join.kind table.sql [join.condition]]
        introduced := chain.introduced ++ [(table.key, chain.links.length)] } := by
  have kept : ¬join.condition.isEmpty = true := mt String.isEmpty_iff.mp conditional
  rw [pushStep, if_neg kept, push_of_not_mem absent]

theorem keys_push_of_not_mem (absent : key ∉ chain.keys) :
    (chain.push link key).keys = chain.keys ++ [key] := by
  rw [push_of_not_mem absent, keys, List.map_append]
  rfl

/-- A key that was there keeps its position; a new one has the position of the new link. -/
theorem position?_push :
    (chain.push link other).position? key =
      (chain.position? key).or (if key = other then some chain.links.length else none) := by
  by_cases present : other ∈ chain.keys
  · rw [push_of_mem present]
    change chain.position? key = _
    by_cases same : key = other
    · obtain ⟨earlier, found⟩ := mem_keys_iff.mp present
      rw [same, found, Option.some_or]
    · rw [if_neg same, Option.or_none]
  · rw [push_of_not_mem present, position?, List.lookup_append]
    by_cases same : key = other
    · rw [if_pos same, same, List.lookup_cons_self]
      rfl
    · rw [if_neg same, List.lookup_cons, beq_false_of_ne same]
      rfl

/-- A position found after a push was there before, or it is that of the new link. -/
theorem position?_push_cases (found : (chain.push link other).position? key = some position) :
    chain.position? key = some position ∨
      (key = other ∧ key ∉ chain.keys ∧ position = chain.links.length) := by
  rw [position?_push] at found
  cases old : chain.position? key with
  | some earlier =>
    rw [old, Option.some_or] at found
    exact .inl found
  | none =>
    rw [old, Option.none_or] at found
    split at found
    · rename_i same
      exact .inr ⟨same, position?_eq_none_iff.mp old, (Option.some.inj found).symm⟩
    · contradiction

theorem position?_push_of_some (found : chain.position? key = some position) :
    (chain.push link other).position? key = some position := by
  rw [position?_push, found, Option.some_or]

theorem position?_push_self (absent : key ∉ chain.keys) :
    (chain.push link key).position? key = some chain.links.length := by
  rw [position?_push, position?_eq_none_iff.mpr absent, Option.none_or, if_pos rfl]

theorem mem_keys_push_iff :
    key ∈ (chain.push link other).keys ↔ key ∈ chain.keys ∨ key = other := by
  simp only [mem_keys_iff, position?_push]
  cases chain.position? key <;> simp

theorem mem_keys_pushTable (chain : Chain) (table : TableRef) :
    table.key ∈ (chain.pushTable table).keys := by
  unfold pushTable
  split
  · rename_i present
    exact contains_iff.mp present
  · exact mem_keys_push_iff.mpr (.inr rfl)

@[simp] theorem keys_pushVerbatim : (chain.pushVerbatim sql).keys = chain.keys := rfl

@[simp] theorem position?_pushVerbatim :
    (chain.pushVerbatim sql).position? key = chain.position? key := rfl

/-- A condition goes onto the step at its position, or else nowhere among the links. -/
theorem attach_cases (chain : Chain) (position : Nat) (condition : String) :
    chain.attach position condition = chain ∨
      (∃ kind table conditions,
        chain.links[position]? = some (.step kind table conditions) ∧
          chain.attach position condition =
            { chain with
              links := chain.links.set position (.step kind table (conditions ++ [condition])) }) ∨
      chain.attach position condition =
        { chain with residual := chain.residual ++ [condition] } := by
  unfold attach
  split
  · exact .inl rfl
  · split
    · rename_i kind table conditions found
      exact .inr (.inl ⟨kind, table, conditions, found, rfl⟩)
    · exact .inr (.inr rfl)

theorem length_links_attach :
    (chain.attach position condition).links.length = chain.links.length := by
  obtain same | ⟨_, _, _, _, same⟩ | same := attach_cases chain position condition <;> simp [same]

@[simp] theorem introduced_attach :
    (chain.attach position condition).introduced = chain.introduced := by
  obtain same | ⟨_, _, _, _, same⟩ | same := attach_cases chain position condition <;> rw [same]

@[simp] theorem keys_attach : (chain.attach position condition).keys = chain.keys := by
  rw [keys, introduced_attach, keys]

@[simp] theorem position?_attach :
    (chain.attach position condition).position? key = chain.position? key := by
  rw [position?, introduced_attach, position?]

/-- The table that the link at a position brings in. -/
def table? (chain : Chain) (position : Nat) : Option String :=
  chain.links[position]?.bind Link.table?

/-- The conditions that the link at a position carries. -/
def conditions (chain : Chain) (position : Nat) : List String :=
  (chain.links[position]?.map Link.conditions).getD []

section Operations

variable {place : Nat}

/-- The links after one more has come to the end. -/
theorem getElem?_links_append (chain : Chain) (link : Link) (place : Nat) :
    (chain.links ++ [link])[place]? =
      if place = chain.links.length then some link else chain.links[place]? := by
  rcases Nat.lt_trichotomy place chain.links.length with before | last | beyond
  · rw [if_neg (Nat.ne_of_lt before), List.getElem?_append_left before]
  · rw [if_pos last, last, List.getElem?_concat_length]
  · have outside : (chain.links ++ [link]).length ≤ place := by
      rw [List.length_append]
      exact beyond
    rw [if_neg (Nat.ne_of_gt beyond), List.getElem?_eq_none outside,
      List.getElem?_eq_none (Nat.le_of_lt beyond)]

theorem table?_push :
    (chain.push link key).table? place =
      if place = chain.links.length then link.table? else chain.table? place := by
  rw [table?, links_push, getElem?_links_append]
  split <;> rfl

theorem table?_pushVerbatim :
    (chain.pushVerbatim sql).table? place = chain.table? place := by
  rw [table?, pushVerbatim, getElem?_links_append]
  split
  · rename_i last
    rw [table?, last, List.getElem?_eq_none (Nat.le_refl _)]
    rfl
  · rfl

theorem mem_conditions_push
    (member : condition ∈ (chain.push link key).conditions place) :
    condition ∈ chain.conditions place ∨
      (place = chain.links.length ∧ condition ∈ link.conditions) := by
  rw [conditions, links_push, getElem?_links_append] at member
  split at member
  · rename_i last
    exact .inr ⟨last, member⟩
  · exact .inl member

theorem conditions_pushVerbatim :
    (chain.pushVerbatim sql).conditions place = chain.conditions place := by
  rw [conditions, pushVerbatim, getElem?_links_append]
  split
  · rename_i last
    rw [conditions, last, List.getElem?_eq_none (Nat.le_refl _)]
    rfl
  · rfl

theorem table?_attach :
    (chain.attach position condition).table? place = chain.table? place := by
  obtain same | ⟨kind, table, conditions, found, same⟩ | same :=
    attach_cases chain position condition
  · rw [same]
  · rw [same, table?, List.getElem?_set', table?]
    split
    · rename_i here
      rw [← here, found]
      rfl
    · rfl
  · rw [same]
    rfl

/-- Attaching a condition adds it at its position and nothing anywhere else. -/
theorem mem_conditions_attach {text : String}
    (member : text ∈ (chain.attach position condition).conditions place) :
    text ∈ chain.conditions place ∨ (place = position ∧ text = condition) := by
  obtain same | ⟨kind, table, carried, found, same⟩ | same :=
    attach_cases chain position condition
  · exact .inl (same ▸ member)
  · rw [same, conditions, List.getElem?_set'] at member
    split at member
    · rename_i here
      rw [← here, found] at member
      rw [← here, conditions, found]
      obtain old | new := List.mem_append.mp member
      · exact .inl old
      · exact .inr ⟨rfl, List.mem_singleton.mp new⟩
    · exact .inl member
  · rw [same] at member
    exact .inl member

end Operations

/-- No position of a key is later than the latest one. -/
theorem le_latest {keys : List String} (member : key ∈ keys)
    (found : chain.position? key = some position) : position ≤ chain.latest keys := by
  have listed : position ∈ keys.filterMap chain.position? :=
    List.mem_filterMap.mpr ⟨key, member, found⟩
  rw [latest, List.foldl_max_eq_max (List.ne_nil_of_mem listed)]
  exact Nat.le_trans (List.le_max_of_mem listed) (Nat.le_max_right _ _)

end Chain

end SelectCompiler
