import SelectCompiler.Proofs.OptionGroup.Classes

/-!
The classes of a list of fields as an ordered partition of those that have an option group. What
is in a class, where a class stands and where a name stands in it are all said by places in the
list of fields, and there is no more than one such partition. An order of the fields only orders
the classes and the names in them.
-/

namespace SelectCompiler

section Ascending

variable {α β : Type} [DecidableEq β]

/-- The first occurrences of values are in the order of the places where these occur first. -/
theorem ascending_eraseDups (value? : α → Option β) (list : List α) :
    (list.filterMap value?).eraseDups.Pairwise fun a b =>
      (list.findIdx fun x => value? x = some a) < list.findIdx fun x => value? x = some b := by
  induction list using List.reverseRecOn with
  | nil => exact List.Pairwise.nil
  | append_singleton earlier last ih =>
    have before {value : β} (known : value ∈ (earlier.filterMap value?).eraseDups) :
        (earlier.findIdx fun x => value? x = some value) < earlier.length := by
      obtain ⟨x, member, gives⟩ := List.mem_filterMap.mp (List.mem_eraseDups.mp known)
      exact List.findIdx_lt_length.mpr ⟨x, member, decide_eq_true gives⟩
    have kept {value : β} (known : value ∈ (earlier.filterMap value?).eraseDups) :
        ((earlier ++ [last]).findIdx fun x => value? x = some value) =
          earlier.findIdx fun x => value? x = some value := by
      rw [List.findIdx_append, if_pos (before known)]
    have ascending : (earlier.filterMap value?).eraseDups.Pairwise fun a b =>
        ((earlier ++ [last]).findIdx fun x => value? x = some a) <
          (earlier ++ [last]).findIdx fun x => value? x = some b := by
      refine ih.imp_of_mem ?_
      intro a b first second less
      rwa [kept first, kept second]
    rw [List.filterMap_append]
    cases gives : value? last with
    | none =>
      rwa [List.filterMap_cons_none gives, List.filterMap_nil, List.append_nil]
    | some value =>
      rw [List.filterMap_cons_some gives, List.filterMap_nil, eraseDups_concat]
      by_cases known : value ∈ (earlier.filterMap value?).eraseDups
      · rwa [if_pos known]
      · rw [if_neg known, List.pairwise_append]
        refine ⟨ascending, List.pairwise_singleton _ _, ?_⟩
        intro a first b second
        rw [List.mem_singleton] at second
        subst second
        have absent : ¬(earlier.findIdx fun x => value? x = some b) < earlier.length := by
          rintro found
          obtain ⟨x, member, same⟩ := List.findIdx_lt_length.mp found
          exact known (List.mem_eraseDups.mpr
            (List.mem_filterMap.mpr ⟨x, member, of_decide_eq_true same⟩))
        rw [kept first, List.findIdx_append, if_neg absent]
        exact Nat.lt_of_lt_of_le (before first) (Nat.le_add_left _ _)

end Ascending

namespace FieldMetadata

variable (fields : List FieldMetadata)

/-- Where in a list an option group occurs first. -/
def groupPlace (group : String) : Nat :=
  fields.findIdx fun field => field.optionGroup = some group

/-- Where in a list a name occurs first under an option group. -/
def namePlace (group name : String) : Nat :=
  fields.idxOf ⟨name, some group⟩

theorem groups_ascending :
    (groups fields).Pairwise fun a b => groupPlace fields a < groupPlace fields b :=
  ascending_eraseDups optionGroup fields

theorem namesUnder_ascending (group : String) :
    (namesUnder fields group).Pairwise fun a b =>
      namePlace fields group a < namePlace fields group b := by
  let value? (field : FieldMetadata) : Option String :=
    if field.optionGroup = some group then some field.name else none
  have names : namesUnder fields group = (fields.filterMap value?).eraseDups := by
    rw [namesUnder, ← List.filterMap_eq_map, List.filterMap_filter]
    simp only [decide_eq_true_eq, Function.comp_apply, value?]
  have place (name : String) :
      namePlace fields group name = fields.findIdx fun field => value? field = some name := by
    have same (field : FieldMetadata) :
        (field == ⟨name, some group⟩) = decide (value? field = some name) := by
      obtain ⟨own, other⟩ := field
      by_cases grouped : other = some group <;> simp [value?, grouped, Bool.beq_eq_decide_eq]
    rw [namePlace, List.idxOf]
    simp only [same]
  simp only [names, place]
  exact ascending_eraseDups value? fields

end FieldMetadata

namespace FieldClass

open FieldMetadata

variable {fields other : List FieldMetadata} {classes more : List FieldClass}

/-- Every class holds the names of the fields with its option group, where each of them occurs
first, and there is a class for every group, where the group occurs first. -/
structure Partitions (fields : List FieldMetadata) (classes : List FieldClass) : Prop where
  nonempty : ∀ cls ∈ classes, cls.fields ≠ []
  covers : ∀ name group, ⟨name, some group⟩ ∈ fields → ∃ cls ∈ classes, cls.optionGroup = group
  mem_iff : ∀ cls ∈ classes, ∀ name,
    name ∈ cls.fields ↔ ⟨name, some cls.optionGroup⟩ ∈ fields
  groups_ascending : classes.Pairwise fun a b =>
    groupPlace fields a.optionGroup < groupPlace fields b.optionGroup
  names_ascending : ∀ cls ∈ classes, cls.fields.Pairwise fun a b =>
    namePlace fields cls.optionGroup a < namePlace fields cls.optionGroup b

/-- The same option groups with the same names in each, all of this in any order. -/
def SameButOrder (classes more : List FieldClass) : Prop :=
  ∃ reordered, classes.Perm reordered ∧
    List.Forall₂ (fun a b => a.optionGroup = b.optionGroup ∧ a.fields.Perm b.fields) reordered more

theorem partitions_ofFields (fields : List FieldMetadata) :
    Partitions fields (ofFields fields) := by
  rw [ofFields_eq]
  constructor
  · intro cls member
    obtain ⟨group, listed, rfl⟩ := List.mem_map.mp member
    obtain ⟨name, given⟩ := mem_groups_iff.mp listed
    exact List.ne_nil_of_mem (mem_namesUnder_iff.mpr given)
  · intro name group given
    exact ⟨_, List.mem_map.mpr ⟨group, mem_groups_iff.mpr ⟨name, given⟩, rfl⟩, rfl⟩
  · intro cls member name
    obtain ⟨group, _, rfl⟩ := List.mem_map.mp member
    exact mem_namesUnder_iff
  · rw [List.pairwise_map]
    exact groups_ascending fields
  · intro cls member
    obtain ⟨group, _, rfl⟩ := List.mem_map.mp member
    exact namesUnder_ascending fields group

namespace Partitions

theorem nodup_optionGroups (partitions : Partitions fields classes) :
    (classes.map optionGroup).Nodup := by
  rw [List.Nodup, List.pairwise_map]
  apply partitions.groups_ascending.imp
  intro a b less same
  rw [same] at less
  exact lt_irrefl _ less

theorem nodup_fields (partitions : Partitions fields classes) {cls : FieldClass}
    (member : cls ∈ classes) : cls.fields.Nodup := by
  apply (partitions.names_ascending cls member).imp
  intro a b less same
  rw [same] at less
  exact lt_irrefl _ less

theorem optionGroups_eq (partitions : Partitions fields classes) :
    classes.map optionGroup = groups fields := by
  apply eq_of_ascending (groupPlace fields) (fun _ _ => lt_asymm)
    (List.pairwise_map.mpr partitions.groups_ascending) (FieldMetadata.groups_ascending fields)
  intro group
  rw [mem_groups_iff, List.mem_map]
  constructor
  · rintro ⟨cls, member, rfl⟩
    obtain ⟨name, listed⟩ := List.exists_mem_of_ne_nil _ (partitions.nonempty cls member)
    exact ⟨name, (partitions.mem_iff cls member name).mp listed⟩
  · rintro ⟨name, given⟩
    exact partitions.covers name group given

theorem fields_eq (partitions : Partitions fields classes) {cls : FieldClass}
    (member : cls ∈ classes) : cls.fields = namesUnder fields cls.optionGroup := by
  apply eq_of_ascending (namePlace fields cls.optionGroup) (fun _ _ => lt_asymm)
    (partitions.names_ascending cls member) (namesUnder_ascending fields cls.optionGroup)
  intro name
  rw [partitions.mem_iff cls member, mem_namesUnder_iff]

/-- Fields have one partition. -/
theorem unique (partitions : Partitions fields classes) : classes = ofFields fields := by
  rw [ofFields_eq, ← partitions.optionGroups_eq, List.map_map]
  conv_lhs => rw [← List.map_id classes]
  apply List.map_congr_left
  intro cls member
  rw [Function.comp_apply, ← partitions.fields_eq member, id]

end Partitions

/-- Fields without an option group change nothing. -/
theorem ofFields_filter_isSome (fields : List FieldMetadata) :
    ofFields (fields.filter fun field => field.optionGroup.isSome) = ofFields fields := by
  rw [ofFields, List.foldl_filter, ofFields]
  congr 1
  funext classes field
  cases field.optionGroup <;> rfl

/-- The classes of the same fields are the same but for the order. -/
theorem ofFields_sameButOrder (same : ∀ field, field ∈ other ↔ field ∈ fields) :
    SameButOrder (ofFields other) (ofFields fields) := by
  have groupsPerm : (groups other).Perm (groups fields) := by
    apply (List.perm_ext_iff_of_nodup (nodup_groups other) (nodup_groups fields)).mpr
    intro group
    simp only [mem_groups_iff, same]
  have namesPerm (group : String) : (namesUnder other group).Perm (namesUnder fields group) := by
    apply (List.perm_ext_iff_of_nodup (nodup_namesUnder other group)
      (nodup_namesUnder fields group)).mpr
    intro name
    rw [mem_namesUnder_iff, mem_namesUnder_iff, same]
  rw [ofFields_eq, ofFields_eq]
  refine ⟨_, groupsPerm.map _, ?_⟩
  rw [List.forall₂_map_left_iff, List.forall₂_map_right_iff, List.forall₂_same]
  intro group _
  exact ⟨rfl, namesPerm group⟩

/-- The classes of fields are their one ordered partition: no group has two classes and no class a
name twice, fields without a group have no part in it, and another order of the fields gives the
same classes of the same names in another order. -/
theorem ofFields_ordered_partition (fields : List FieldMetadata) :
    Partitions fields (ofFields fields) ∧
    (∀ classes, Partitions fields classes → classes = ofFields fields) ∧
    ((ofFields fields).map optionGroup).Nodup ∧
    (∀ cls ∈ ofFields fields, cls.fields.Nodup) ∧
    ofFields (fields.filter fun field => field.optionGroup.isSome) = ofFields fields ∧
    ∀ other : List FieldMetadata, other.Perm fields →
      SameButOrder (ofFields other) (ofFields fields) := by
  have partitions := partitions_ofFields fields
  refine ⟨partitions, fun _ others => others.unique, partitions.nodup_optionGroups,
    fun _ member => partitions.nodup_fields member, ofFields_filter_isSome fields, ?_⟩
  intro other perm
  exact ofFields_sameButOrder fun _ => perm.mem_iff

/-- A name without a group that has one elsewhere, a name in two groups, and a field listed twice;
the reversed list has the groups, and the names of one of them, the other way round. -/
theorem ofFields_ordered_partition_profile :
    let fields : List FieldMetadata :=
      [⟨"languages", none⟩, ⟨"skills", some "skill_options"⟩, ⟨"languages", some "languages"⟩,
        ⟨"required_skills", some "skill_options"⟩, ⟨"skills", some "skill_options"⟩,
        ⟨"skills", some "languages"⟩]
    ofFields fields = [⟨"skill_options", ["skills", "required_skills"]⟩,
        ⟨"languages", ["languages", "skills"]⟩] ∧
      ofFields fields.reverse = [⟨"languages", ["skills", "languages"]⟩,
        ⟨"skill_options", ["skills", "required_skills"]⟩] ∧
      SameButOrder (ofFields fields.reverse) (ofFields fields) := by
  intro fields
  refine ⟨by decide +kernel, by decide +kernel, ?_⟩
  exact (ofFields_ordered_partition fields).2.2.2.2.2 fields.reverse (List.reverse_perm fields)

end FieldClass

end SelectCompiler
