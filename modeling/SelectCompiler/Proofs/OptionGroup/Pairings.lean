import Mathlib.Data.Option.Basic
import SelectCompiler.Proofs.OptionGroup.Classes
import SelectCompiler.Proofs.Text.Bytes

/-!
The pairings of a list of fields. They are determined by which names occur under which option group,
so neither the order of the fields counts nor how often one is listed.
-/

namespace SelectCompiler

open FieldMetadata
open Text (bytes)

section Sorted

/-- Sorted by keys of which no two are the same, a list is strictly ascending. -/
theorem pairwise_lt_mergeSort {α : Type} (key : α → String) {list : List α}
    (distinct : (list.map key).Nodup) :
    (list.mergeSort fun a b => decide (key a ≤ key b)).Pairwise fun a b => key a < key b := by
  have ascending : (list.mergeSort fun a b => decide (key a ≤ key b)).Pairwise
      fun a b => decide (key a ≤ key b) :=
    List.pairwise_mergeSort (fun a b c => by simpa using le_trans)
      (fun a b => by simpa using le_total (key a) (key b)) list
  have apart : (list.mergeSort fun a b => decide (key a ≤ key b)).Pairwise
      fun a b => key a ≠ key b :=
    List.pairwise_map.mp (((List.mergeSort_perm list _).map key).nodup_iff.mpr distinct)
  refine (ascending.and apart).imp fun both => ?_
  exact lt_of_le_of_ne (of_decide_eq_true both.1) both.2

variable {sorted : List String} {left right : String}

/-- The first two of a strictly ascending list are the two smallest. -/
theorem exists_eq_cons_cons_iff (ascending : sorted.Pairwise (· < ·)) :
    (∃ rest, sorted = left :: right :: rest) ↔ left ∈ sorted ∧ right ∈ sorted ∧ left < right ∧
      ∀ name ∈ sorted, name = left ∨ right ≤ name := by
  constructor
  · rintro ⟨rest, rfl⟩
    obtain ⟨first, second⟩ := List.pairwise_cons.mp ascending
    refine ⟨by simp, by simp, first right (by simp), ?_⟩
    simp only [List.mem_cons]
    rintro name (rfl | rfl | later)
    · exact .inl rfl
    · exact .inr le_rfl
    · exact .inr (le_of_lt ((List.pairwise_cons.mp second).1 name later))
  · rintro ⟨lefts, rights, less, least⟩
    match sorted with
    | [] => contradiction
    | [only] =>
      rw [List.mem_singleton] at lefts rights
      exact absurd less (by rw [lefts, rights]; exact lt_irrefl _)
    | first :: second :: rest =>
      obtain ⟨above, others⟩ := List.pairwise_cons.mp ascending
      have start : first = left := by
        refine (least first (by simp)).resolve_right fun beyond => ?_
        obtain same | later := List.mem_cons.mp lefts
        · exact absurd less (not_lt_of_ge (same ▸ beyond))
        · exact absurd (less.trans_le beyond) (lt_asymm (above left later))
      subst start
      have next : second = right := by
        have beyond : right ≤ second :=
          (least second (by simp)).resolve_left (ne_of_gt (above second (by simp)))
        obtain same | rfl | later := by simpa only [List.mem_cons] using rights
        · exact absurd less (by rw [same]; exact lt_irrefl _)
        · rfl
        · exact absurd ((List.pairwise_cons.mp others).1 right later) (not_lt_of_ge beyond)
      exact ⟨rest, by rw [next]⟩

end Sorted

namespace FieldClass

/-- A class of two or more gives a pairing. -/
theorem exists_pairing? (cls : FieldClass) {first second : String} (apart : first ≠ second)
    (firsts : first ∈ cls.fields) (seconds : second ∈ cls.fields) :
    ∃ pairing, cls.pairing? = some pairing := by
  rw [pairing?]
  have listed {name : String} (member : name ∈ cls.fields) :
      name ∈ cls.fields.mergeSort fun a b => decide (a ≤ b) := List.mem_mergeSort.mpr member
  match cls.fields.mergeSort fun a b => decide (a ≤ b), listed firsts, listed seconds with
  | [only], firsts, seconds =>
    rw [List.mem_singleton] at firsts seconds
    exact absurd (firsts.trans seconds.symm) apart
  | left :: right :: rest, _, _ => exact ⟨_, rfl⟩

/-- A class of different names gives the pairing of its two smallest. -/
theorem pairing?_eq_some_iff {fields : FieldClass} {pairing : FieldPairing}
    (nodup : fields.fields.Nodup) :
    fields.pairing? = some pairing ↔ pairing.optionGroup = fields.optionGroup ∧
      pairing.left ∈ fields.fields ∧ pairing.right ∈ fields.fields ∧
      pairing.left < pairing.right ∧
      ∀ name ∈ fields.fields, name = pairing.left ∨ pairing.right ≤ name := by
  have ascending := pairwise_lt_mergeSort id (by rwa [List.map_id])
  simp only [id] at ascending
  have smallest := @exists_eq_cons_cons_iff _ pairing.left pairing.right ascending
  simp only [List.mem_mergeSort] at smallest
  rw [← smallest, pairing?]
  obtain ⟨group, left, right⟩ := pairing
  split
  · rename_i first second rest sorted
    rw [sorted]
    simp only [Option.some.injEq, FieldPairing.mk.injEq, List.cons.injEq]
    grind
  · rename_i short
    simp only [reduceCtorEq, false_iff, not_and, not_exists]
    intro _ rest sorted
    exact short _ _ _ sorted

end FieldClass

namespace FieldPairing

variable {fields other : List FieldMetadata} {pairing : FieldPairing}
  {pairings more : List FieldPairing}

/-- The pairing is of the two smallest names that its option group has among the fields. -/
structure IsSmallest (fields : List FieldMetadata) (pairing : FieldPairing) : Prop where
  left : ⟨pairing.left, some pairing.optionGroup⟩ ∈ fields
  right : ⟨pairing.right, some pairing.optionGroup⟩ ∈ fields
  ascending : bytes pairing.left < bytes pairing.right
  least : ∀ name, ⟨name, some pairing.optionGroup⟩ ∈ fields →
    name = pairing.left ∨ bytes pairing.right ≤ bytes name

/-- The pairings are those of the option groups that have two names among the fields, in the order
of the groups. -/
structure Exactly (fields : List FieldMetadata) (pairings : List FieldPairing) : Prop where
  ascending : pairings.Pairwise fun a b => bytes a.optionGroup < bytes b.optionGroup
  mem_iff : ∀ pairing, pairing ∈ pairings ↔ pairing.IsSmallest fields
  shared : ∀ group, (∃ pairing ∈ pairings, pairing.optionGroup = group) ↔
    ∃ first second, first ≠ second ∧ ⟨first, some group⟩ ∈ fields ∧ ⟨second, some group⟩ ∈ fields

/-- The smallest two of a group are what its class gives. -/
theorem isSmallest_iff :
    pairing.IsSmallest fields ↔
      ∃ cls ∈ FieldClass.ofFields fields, cls.pairing? = some pairing := by
  rw [FieldClass.ofFields_eq]
  constructor
  · intro smallest
    refine ⟨_, List.mem_map.mpr ⟨_, mem_groups_iff.mpr ⟨_, smallest.left⟩, rfl⟩, ?_⟩
    refine (FieldClass.pairing?_eq_some_iff (nodup_namesUnder fields _)).mpr
      ⟨rfl, mem_namesUnder_iff.mpr smallest.left, mem_namesUnder_iff.mpr smallest.right,
        Text.bytes_lt_iff.mp smallest.ascending, fun name member => ?_⟩
    exact (smallest.least name (mem_namesUnder_iff.mp member)).imp_right Text.bytes_le_iff.mp
  · rintro ⟨cls, member, paired⟩
    obtain ⟨group, _, rfl⟩ := List.mem_map.mp member
    obtain ⟨rfl, left, right, ascending, least⟩ :=
      (FieldClass.pairing?_eq_some_iff (nodup_namesUnder fields group)).mp paired
    refine ⟨mem_namesUnder_iff.mp left, mem_namesUnder_iff.mp right,
      Text.bytes_lt_iff.mpr ascending, fun name member => ?_⟩
    exact (least name (mem_namesUnder_iff.mpr member)).imp_right Text.bytes_le_iff.mpr

/-- Two names of a group are enough for its class to give a pairing. -/
theorem exists_isSmallest_iff {group : String} :
    (∃ pairing : FieldPairing, pairing.IsSmallest fields ∧ pairing.optionGroup = group) ↔
      ∃ first second, first ≠ second ∧
        ⟨first, some group⟩ ∈ fields ∧ ⟨second, some group⟩ ∈ fields := by
  constructor
  · rintro ⟨pairing, smallest, rfl⟩
    have apart : pairing.left ≠ pairing.right :=
      ne_of_lt (Text.bytes_lt_iff.mp smallest.ascending)
    exact ⟨_, _, apart, smallest.left, smallest.right⟩
  · rintro ⟨first, second, apart, firsts, seconds⟩
    obtain ⟨pairing, paired⟩ := FieldClass.exists_pairing? ⟨group, namesUnder fields group⟩ apart
      (mem_namesUnder_iff.mpr firsts) (mem_namesUnder_iff.mpr seconds)
    refine ⟨pairing, isSmallest_iff.mpr ⟨_, ?_, paired⟩, ?_⟩
    · rw [FieldClass.ofFields_eq]
      exact List.mem_map.mpr ⟨group, mem_groups_iff.mpr ⟨first, firsts⟩, rfl⟩
    · exact ((FieldClass.pairing?_eq_some_iff (nodup_namesUnder fields group)).mp paired).1

/-- The groups of the pairings that the classes give are all different. -/
theorem nodup_optionGroups (fields : List FieldMetadata) :
    (((FieldClass.ofFields fields).filterMap FieldClass.pairing?).map optionGroup).Nodup := by
  rw [FieldClass.ofFields_eq, List.Nodup, List.pairwise_map, List.pairwise_filterMap,
    List.pairwise_map]
  refine (nodup_groups fields).imp fun apart pairing first more second => ?_
  rw [((FieldClass.pairing?_eq_some_iff (nodup_namesUnder fields _)).mp first).1,
    ((FieldClass.pairing?_eq_some_iff (nodup_namesUnder fields _)).mp second).1]
  exact apart

theorem mem_ofFields_iff : pairing ∈ ofFields fields ↔ pairing.IsSmallest fields := by
  rw [ofFields, List.mem_mergeSort, List.mem_filterMap, isSmallest_iff]

theorem exactly_ofFields (fields : List FieldMetadata) : Exactly fields (ofFields fields) where
  ascending := (pairwise_lt_mergeSort optionGroup (nodup_optionGroups fields)).imp
    Text.bytes_lt_iff.mpr
  mem_iff _ := mem_ofFields_iff
  shared group := by
    simp only [mem_ofFields_iff]
    exact exists_isSmallest_iff

/-- Fields have one list of pairings. -/
theorem Exactly.unique (first : Exactly fields pairings) (second : Exactly fields more) :
    pairings = more := by
  apply eq_of_ascending (fun pairing => bytes pairing.optionGroup) (fun _ _ => List.lt_asymm)
    first.ascending second.ascending
  intro pairing
  exact (first.mem_iff pairing).trans (second.mem_iff pairing).symm

/-- What the pairings are depends on which fields there are alone. -/
theorem Exactly.congr (same : ∀ field, field ∈ other ↔ field ∈ fields)
    (exactly : Exactly other pairings) : Exactly fields pairings where
  ascending := exactly.ascending
  mem_iff pairing := by
    have alike : pairing.IsSmallest other ↔ pairing.IsSmallest fields :=
      ⟨fun ⟨left, right, ascending, least⟩ => ⟨(same _).mp left, (same _).mp right, ascending,
          fun name member => least name ((same _).mpr member)⟩,
        fun ⟨left, right, ascending, least⟩ => ⟨(same _).mpr left, (same _).mpr right, ascending,
          fun name member => least name ((same _).mp member)⟩⟩
    exact (exactly.mem_iff pairing).trans alike
  shared group := by
    simp only [exactly.shared, same]

theorem ofFields_congr (same : ∀ field, field ∈ other ↔ field ∈ fields) :
    ofFields other = ofFields fields :=
  (exactly_ofFields other).congr same |>.unique (exactly_ofFields fields)

/-- The pairings of fields are exactly those of the groups with two names among them, each of the
two smallest, by option group; so an order or a repetition of the fields changes nothing. The
pairings among the recommended fields are the same for the fields with a recommended name. -/
theorem ofFields_exact (fields : List FieldMetadata) :
    (Exactly fields (ofFields fields) ∧
      ∀ pairings, Exactly fields pairings → pairings = ofFields fields) ∧
    (Exactly (fields.filter fun field => field.name ∈ recommendedFields) (ofRecommended fields) ∧
      ∀ pairings, Exactly (fields.filter fun field => field.name ∈ recommendedFields) pairings →
        pairings = ofRecommended fields) ∧
    ∀ other : List FieldMetadata, (∀ field, field ∈ other ↔ field ∈ fields) →
      ofFields other = ofFields fields ∧ ofRecommended other = ofRecommended fields := by
  have recommended (list : List FieldMetadata) : ofRecommended list =
      ofFields (list.filter fun field => field.name ∈ recommendedFields) := by
    simp only [ofRecommended, List.contains_eq_mem]
  refine ⟨⟨exactly_ofFields fields, fun _ exactly => exactly.unique (exactly_ofFields fields)⟩,
    ?_, fun other same => ⟨ofFields_congr same, ?_⟩⟩
  · rw [recommended]
    exact ⟨exactly_ofFields _, fun _ exactly => exactly.unique (exactly_ofFields _)⟩
  · rw [recommended, recommended]
    exact ofFields_congr fun field => by rw [List.mem_filter, List.mem_filter, same]

/-- Two orders of the same fields, one of them with a field listed twice. -/
theorem ofFields_exact_reversed :
    let fields : List FieldMetadata :=
      [⟨"Other_Skills", some "skills"⟩, ⟨"Hobbies", none⟩, ⟨"cities", some "places"⟩,
        ⟨"Interests", some "skills"⟩, ⟨"states", some "places"⟩, ⟨"talents", some "skills"⟩]
    let other := fields.reverse ++ [⟨"cities", some "places"⟩]
    ofFields other = [⟨"places", "cities", "states"⟩, ⟨"skills", "Interests", "Other_Skills"⟩] ∧
      ofRecommended other = [⟨"skills", "Interests", "Other_Skills"⟩] := by
  intro fields other
  obtain ⟨paired, recommended⟩ := (ofFields_exact fields).2.2 other (by
    intro field
    simp only [other, fields, List.mem_append, List.mem_reverse, List.mem_cons, List.not_mem_nil]
    grind)
  rw [paired, recommended]
  simp +decide [fields, ofRecommended, ofFields, FieldClass.ofFields, FieldClass.insert,
    FieldClass.pairing?, List.mergeSort, List.MergeSort.Internal.splitInTwo]

end FieldPairing

end SelectCompiler
