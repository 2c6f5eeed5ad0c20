import SelectCompiler.Json.Value
import SelectCompiler.Proofs.Occurrences

/-!
Members written one after the other. A key stands where it was written first and has the value that
was written last.
-/

namespace SelectCompiler.Json.Members

section Insert

variable (members : Members) {key : String} (value : Json)

theorem get?_insert_self : (members.insert key value).get? key = some value := by
  unfold get?
  induction members with
  | nil => simp only [insert, List.lookup_cons, beq_self_eq_true]
  | cons member rest ih =>
    rw [insert]
    split
    · simp only [List.lookup_cons, beq_self_eq_true]
    · rename_i other
      rw [List.lookup_cons, beq_false_of_ne (Ne.symm other)]
      exact ih

theorem get?_insert_of_ne {other : String} (distinct : other ≠ key) :
    (members.insert key value).get? other = members.get? other := by
  unfold get?
  induction members with
  | nil => simp only [insert, List.lookup_cons, beq_false_of_ne distinct]
  | cons member rest ih =>
    rw [insert]
    split
    · rename_i same
      rw [List.lookup_cons, List.lookup_cons, same, beq_false_of_ne distinct]
    · rw [List.lookup_cons, List.lookup_cons, ih]

variable {members value} {other : Json}

/-- A new member goes to the end. -/
theorem insert_of_get?_eq_none (missing : members.get? key = none) :
    members.insert key value = members ++ [(key, value)] := by
  induction members with
  | nil => rfl
  | cons member rest ih =>
    rw [get?, List.lookup_cons] at missing
    split at missing
    · contradiction
    · rename_i unlike
      rw [insert, if_neg (Ne.symm (beq_eq_false_iff_ne.mp unlike)), ih missing, List.cons_append]

/-- Of two values written under one key the second counts. -/
theorem insert_insert : (members.insert key value).insert key other = members.insert key other := by
  induction members with
  | nil => simp only [insert, if_true]
  | cons member rest ih =>
    by_cases same : member.1 = key
    · simp only [insert, same, if_true]
    · simp only [insert, same, if_false, ih]

theorem keys_insert :
    (members.insert key value).keys =
      if key ∈ members.keys then members.keys else members.keys ++ [key] := by
  induction members with
  | nil => rfl
  | cons member rest ih =>
    have listed : keys (member :: rest) = member.1 :: keys rest := rfl
    by_cases same : member.1 = key
    · rw [insert, if_pos same, listed, same, if_pos List.mem_cons_self]
      rfl
    · have unlike : key ∈ member.1 :: keys rest ↔ key ∈ keys rest := by
        rw [List.mem_cons, or_iff_right (Ne.symm same)]
      rw [insert, if_neg same, listed, keys, List.map_cons, ← keys, ih]
      simp only [unlike]
      split <;> rfl

end Insert

section Entries

variable {members other : Members} {entries earlier later : List (String × Json)} {key : String}
  {value : Json}

theorem ofList_concat (entries : List (String × Json)) (last : String × Json) :
    ofList (entries ++ [last]) = (ofList entries).insert last.1 last.2 := by
  rw [ofList, List.foldl_append]
  rfl

/-- Every key that is written stands where it was written first. -/
theorem keys_ofList (entries : List (String × Json)) :
    (ofList entries).keys = (entries.map (·.1)).eraseDups := by
  induction entries using List.reverseRecOn with
  | nil => rfl
  | append_singleton earlier last ih =>
    rw [ofList_concat, keys_insert, ih, List.map_append, List.map_singleton, eraseDups_concat]

/-- The value of a key is the one that was written last. -/
theorem get?_ofList (entries : List (String × Json)) (key : String) :
    (ofList entries).get? key = entries.reverse.lookup key := by
  induction entries using List.reverseRecOn with
  | nil => rfl
  | append_singleton earlier last ih =>
    rw [ofList_concat, List.reverse_append, List.reverse_singleton, List.singleton_append,
      List.lookup_cons]
    by_cases same : key = last.1
    · rw [same, get?_insert_self, beq_self_eq_true]
    · rw [get?_insert_of_ne _ _ same, beq_false_of_ne same, ih]

theorem get?_ofList_of_last (last : ∀ entry ∈ later, entry.1 ≠ key) :
    (ofList (earlier ++ (key, value) :: later)).get? key = some value := by
  have behind : later.reverse.lookup key = none := by
    rw [List.lookup_eq_none_iff]
    intro entry member
    exact bne_iff_ne.mpr (last entry (List.mem_reverse.mp member)).symm
  rw [get?_ofList, List.reverse_append, List.reverse_cons, List.append_assoc, List.lookup_append,
    behind, Option.none_or, List.singleton_append, List.lookup_cons_self]

theorem mem_of_get? (found : members.get? key = some value) : (key, value) ∈ members := by
  obtain ⟨_, _, split, _⟩ := List.lookup_eq_some_iff.mp found
  rw [split]
  simp

theorem get?_eq_some_iff (distinct : members.keys.Nodup) :
    members.get? key = some value ↔ (key, value) ∈ members := by
  refine ⟨mem_of_get?, fun member => ?_⟩
  obtain ⟨before, after, rfl⟩ := List.append_of_mem member
  rw [get?, List.lookup_eq_some_iff]
  refine ⟨before, after, rfl, fun entry front => ?_⟩
  rw [keys, List.map_append, List.map_cons, List.nodup_append] at distinct
  exact bne_iff_ne.mpr (distinct.2.2 _ (List.mem_map_of_mem front) key List.mem_cons_self).symm

/-- The order of members with different keys does not matter when they are looked up. -/
theorem get?_of_perm (distinct : members.keys.Nodup) (same : other.Perm members) (key : String) :
    other.get? key = members.get? key := by
  have keys : other.keys.Perm members.keys := same.map _
  have distinctToo : other.keys.Nodup := keys.nodup_iff.mpr distinct
  ext value
  rw [get?_eq_some_iff distinct, get?_eq_some_iff distinctToo, same.mem_iff]

/-- Members with different keys are known by these and by what is found under them. -/
theorem eq_of_get?_eq (listed : other.keys = members.keys) (distinct : members.keys.Nodup)
    (found : ∀ key ∈ members.keys, other.get? key = members.get? key) : other = members := by
  induction members generalizing other with
  | nil => exact List.map_eq_nil_iff.mp listed
  | cons member rest ih =>
    obtain ⟨entry, more, rfl, same, others⟩ := List.map_eq_cons_iff.mp listed
    obtain ⟨key, value⟩ := member
    obtain ⟨name, given⟩ := entry
    obtain rfl : key = name := same.symm
    obtain ⟨fresh, distinct⟩ := List.nodup_cons.mp distinct
    have here := found key List.mem_cons_self
    rw [get?, List.lookup_cons_self, get?, List.lookup_cons_self] at here
    rw [Option.some.inj here, ih others distinct]
    intro later member
    have unlike : (later == key) = false := beq_false_of_ne fun same => fresh (same ▸ member)
    have there := found later (List.mem_cons_of_mem _ member)
    rwa [get?, List.lookup_cons, unlike, get?, List.lookup_cons, unlike] at there

end Entries

end SelectCompiler.Json.Members
