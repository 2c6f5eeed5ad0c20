import Mathlib.Data.List.Sort
import SelectCompiler.OptionGroup
import SelectCompiler.Proofs.Occurrences

/-!
The classes of a list of fields. There is one class for each option group, in the order in which
the groups first occur, and it lists the names under its group in the order in which they first
occur there.
-/

namespace SelectCompiler

/-- A list in strictly ascending order is known by its members. -/
theorem eq_of_ascending {α β : Type} [LT β] {first second : List α} (key : α → β)
    (asymm : ∀ a b : β, a < b → ¬b < a) (ascending : first.Pairwise fun a b => key a < key b)
    (ascendingToo : second.Pairwise fun a b => key a < key b)
    (same : ∀ a, a ∈ first ↔ a ∈ second) : first = second := by
  have : Std.Irrefl fun a b => key a < key b := ⟨fun _ less => asymm _ _ less less⟩
  have : Std.Antisymm fun a b => key a < key b :=
    ⟨fun _ _ less greater => absurd greater (asymm _ _ less)⟩
  exact ascending.eq_of_mem_iff ascendingToo same

namespace FieldMetadata

/-- The option groups of fields, each where it occurs first. -/
def groups (fields : List FieldMetadata) : List String :=
  (fields.filterMap optionGroup).eraseDups

/-- The names under an option group, each where it occurs first. -/
def namesUnder (fields : List FieldMetadata) (group : String) : List String :=
  ((fields.filter fun field => field.optionGroup = some group).map name).eraseDups

variable {fields earlier : List FieldMetadata} {field : FieldMetadata} {group : String}

theorem nodup_groups (fields : List FieldMetadata) : (groups fields).Nodup :=
  nodup_eraseDups _

theorem nodup_namesUnder (fields : List FieldMetadata) (group : String) :
    (namesUnder fields group).Nodup :=
  nodup_eraseDups _

theorem mem_groups_iff : group ∈ groups fields ↔ ∃ name, ⟨name, some group⟩ ∈ fields := by
  rw [groups, List.mem_eraseDups, List.mem_filterMap]
  constructor
  · rintro ⟨⟨name, _⟩, member, rfl⟩
    exact ⟨name, member⟩
  · rintro ⟨name, member⟩
    exact ⟨_, member, rfl⟩

theorem mem_namesUnder_iff {name : String} :
    name ∈ namesUnder fields group ↔ ⟨name, some group⟩ ∈ fields := by
  simp only [namesUnder, List.mem_eraseDups, List.mem_map, List.mem_filter, decide_eq_true_eq]
  constructor
  · rintro ⟨⟨_, _⟩, ⟨member, rfl⟩, rfl⟩
    exact member
  · intro member
    exact ⟨_, ⟨member, rfl⟩, rfl⟩

/-- A field without a group changes no group and no names. -/
theorem groups_concat_of_none (apart : field.optionGroup = none) :
    groups (earlier ++ [field]) = groups earlier := by
  rw [groups, List.filterMap_append, List.filterMap_cons_none apart, List.filterMap_nil,
    List.append_nil, groups]

theorem groups_concat_of_some (grouped : field.optionGroup = some group) :
    groups (earlier ++ [field]) =
      if group ∈ groups earlier then groups earlier else groups earlier ++ [group] := by
  rw [groups, List.filterMap_append, List.filterMap_cons_some grouped, List.filterMap_nil,
    eraseDups_concat, groups]

theorem namesUnder_concat_of_ne (other : field.optionGroup ≠ some group) :
    namesUnder (earlier ++ [field]) group = namesUnder earlier group := by
  rw [namesUnder, List.filter_append, List.filter_singleton, decide_eq_false other, cond_false,
    List.append_nil, namesUnder]

theorem namesUnder_concat_of_eq (grouped : field.optionGroup = some group) :
    namesUnder (earlier ++ [field]) group =
      if field.name ∈ namesUnder earlier group then namesUnder earlier group
      else namesUnder earlier group ++ [field.name] := by
  rw [namesUnder, List.filter_append, List.filter_singleton, decide_eq_true grouped, cond_true,
    List.map_append, List.map_singleton, eraseDups_concat, namesUnder]

end FieldMetadata

namespace FieldClass

open FieldMetadata

section Insert

variable {names : String → List String} {groups : List String} {group name : String}

theorem insert_of_mem (nodup : groups.Nodup) (known : group ∈ groups) :
    insert group name (groups.map fun other => ⟨other, names other⟩) =
      groups.map fun other => ⟨other,
        if other = group ∧ name ∉ names other then names other ++ [name] else names other⟩ := by
  induction groups with
  | nil => contradiction
  | cons first rest ih =>
    obtain ⟨fresh, distinct⟩ := List.nodup_cons.mp nodup
    rw [List.map_cons, List.map_cons, insert]
    by_cases same : first = group
    · subst same
      have others : ∀ other ∈ rest, ¬(other = first ∧ name ∉ names other) := by
        rintro other later ⟨rfl, _⟩
        exact fresh later
      rw [if_pos rfl]
      congr 1
      · by_cases listed : name ∈ names first <;> simp [listed]
      · exact List.map_congr_left fun other later => by rw [if_neg (others other later)]
    · have later : group ∈ rest := (List.mem_cons.mp known).resolve_left (Ne.symm same)
      rw [if_neg same, if_neg fun both => same both.1, ih distinct later]

theorem insert_of_not_mem (unknown : group ∉ groups) :
    insert group name (groups.map fun other => ⟨other, names other⟩) =
      (groups.map fun other => ⟨other, names other⟩) ++ [⟨group, [name]⟩] := by
  induction groups with
  | nil => rfl
  | cons first rest ih =>
    rw [List.mem_cons, not_or] at unknown
    rw [List.map_cons, insert, if_neg (Ne.symm unknown.1), ih unknown.2, List.cons_append]

end Insert

/-- The classes of fields: the groups in order, each with the names under it. -/
theorem ofFields_eq (fields : List FieldMetadata) :
    ofFields fields = (groups fields).map fun group => ⟨group, namesUnder fields group⟩ := by
  induction fields using List.reverseRecOn with
  | nil => rfl
  | append_singleton earlier field ih =>
    have step : ofFields (earlier ++ [field]) =
        field.optionGroup.elim (ofFields earlier) fun group =>
          insert group field.name (ofFields earlier) := List.foldl_concat ..
    rw [step, ih]
    cases grouped : field.optionGroup with
    | none =>
      rw [groups_concat_of_none grouped, Option.elim_none]
      exact List.map_congr_left fun group _ => by
        rw [namesUnder_concat_of_ne (by rw [grouped]; exact nofun)]
    | some group =>
      have others (other : String) (apart : other ≠ group) :
          namesUnder (earlier ++ [field]) other = namesUnder earlier other :=
        namesUnder_concat_of_ne (by rw [grouped]; simpa using Ne.symm apart)
      rw [groups_concat_of_some grouped, Option.elim_some]
      by_cases known : group ∈ groups earlier
      · rw [if_pos known, insert_of_mem (nodup_groups earlier) known]
        refine List.map_congr_left fun other _ => ?_
        by_cases same : other = group
        · subst same
          rw [namesUnder_concat_of_eq grouped]
          by_cases listed : field.name ∈ namesUnder earlier other <;> simp [listed]
        · rw [others other same, if_neg fun both => same both.1]
      · have empty : namesUnder earlier group = [] := by
          rw [List.eq_nil_iff_forall_not_mem]
          intro name member
          exact known (mem_groups_iff.mpr ⟨name, mem_namesUnder_iff.mp member⟩)
        rw [if_neg known, insert_of_not_mem known, List.map_append, List.map_singleton,
          namesUnder_concat_of_eq grouped, empty, if_neg List.not_mem_nil, List.nil_append]
        congr 1
        refine List.map_congr_left fun other member => ?_
        rw [others other fun same => known (same ▸ member)]

end FieldClass

end SelectCompiler
