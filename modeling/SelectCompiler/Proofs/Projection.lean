import SelectCompiler.Proofs.Json.Members
import SelectCompiler.Proofs.Outcome
import SelectCompiler.Proofs.Text.Numeral
import SelectCompiler.ReturnFields

/-!
Rows under the keys that were asked for. Of the fields with one output key the first says where the
key stands and the last says which value it has. A list of names asks for the same as an object that
numbers them.
-/

namespace SelectCompiler

section Rows

variable {row other result : Json.Members} {fields : List ReturnField}

/-- The value that a field has in a row; a field that the row lacks is null. -/
def ReturnField.valueIn (row : Json.Members) (field : ReturnField) : Json :=
  (row.get? field.field).getD .null

/-- The result has the output keys in the order in which they were asked for first, and under each
key the value of the last field that asks for it. -/
structure Projects (row : Json.Members) (fields : List ReturnField) (result : Json.Members) :
    Prop where
  keys : result.keys = (fields.map ReturnField.outputKey).eraseDups
  values : ∀ earlier field later, fields = earlier ++ field :: later →
    (∀ other ∈ later, other.outputKey ≠ field.outputKey) →
      result.get? field.outputKey = some (field.valueIn row)

/-- Of the fields with one output key there is a last. -/
theorem ReturnField.exists_last {key : String} (asked : key ∈ fields.map outputKey) :
    ∃ earlier field later, fields = earlier ++ field :: later ∧ field.outputKey = key ∧
      ∀ other ∈ later, other.outputKey ≠ key := by
  induction fields with
  | nil => contradiction
  | cons first rest ih =>
    by_cases again : key ∈ rest.map outputKey
    · obtain ⟨earlier, field, later, rfl, same, last⟩ := ih again
      exact ⟨first :: earlier, field, later, rfl, same, last⟩
    · have same : key = first.outputKey := (List.mem_cons.mp asked).resolve_right again
      refine ⟨[], first, rest, rfl, same.symm, fun other member equal => again ?_⟩
      exact List.mem_map.mpr ⟨other, member, equal⟩

namespace Projects

theorem nodup (projects : Projects row fields result) : result.keys.Nodup := by
  rw [projects.keys]
  exact nodup_eraseDups _

/-- There is only one such result. -/
theorem unique (projects : Projects row fields result) (alike : Projects row fields other) :
    other = result := by
  refine Json.Members.eq_of_get?_eq (alike.keys.trans projects.keys.symm) projects.nodup ?_
  intro key member
  rw [projects.keys, List.mem_eraseDups] at member
  obtain ⟨earlier, field, later, split, rfl, last⟩ := ReturnField.exists_last member
  rw [alike.values earlier field later split last, projects.values earlier field later split last]

/-- No value stands under a key that it was not asked for under. -/
theorem exists_field (projects : Projects row fields result) {key : String} {value : Json}
    (found : result.get? key = some value) :
    ∃ field ∈ fields, field.outputKey = key ∧ value = field.valueIn row := by
  have member : key ∈ result.keys :=
    List.mem_map_of_mem (f := (·.1)) (Json.Members.mem_of_get? found)
  rw [projects.keys, List.mem_eraseDups] at member
  obtain ⟨earlier, field, later, split, rfl, last⟩ := ReturnField.exists_last member
  have shown := projects.values earlier field later split last
  refine ⟨field, by simp [split], rfl, ?_⟩
  exact Option.some.inj (found.symm.trans shown)

/-- The order of the row makes no difference. -/
theorem of_perm (projects : Projects row fields result) (distinct : row.keys.Nodup)
    (same : other.Perm row) : Projects other fields result := by
  refine ⟨projects.keys, fun earlier field later split last => ?_⟩
  rw [projects.values earlier field later split last, ReturnField.valueIn, ReturnField.valueIn,
    Json.Members.get?_of_perm distinct same]

end Projects

theorem projects_projectRow (asked : fields ≠ []) (row : Json.Members) :
    Projects row fields (projectRow row fields) := by
  have written : projectRow row fields =
      .ofList (fields.map fun field => (field.outputKey, field.valueIn row)) := by
    rw [projectRow, List.isEmpty_eq_false_iff.mpr asked]
    rfl
  rw [written]
  refine ⟨?_, fun earlier field later split last => ?_⟩
  · rw [Json.Members.keys_ofList, List.map_map]
    rfl
  · rw [split, List.map_append, List.map_cons]
    exact Json.Members.get?_ofList_of_last (List.forall_mem_map.mpr last)

theorem projectRow_of_perm (asked : fields ≠ []) (distinct : row.keys.Nodup)
    (same : other.Perm row) : projectRow other fields = projectRow row fields :=
  ((projects_projectRow asked row).of_perm distinct same).unique (projects_projectRow asked other)

end Rows

section Names

/-- The names as a list. -/
def Json.ofNames (names : List String) : Json :=
  .array (names.map .string)

/-- The names as an object that numbers them from `first` on. -/
def Json.ofNumberedNames (first : Nat) (names : List String) : Json :=
  .object ((names.zipIdx first).map fun (name, index) => (index.repr, .string name))

theorem Text.unsigned?_repr {n : Nat} (fits : n < wordSize) : unsigned? n.repr = some n := by
  unfold unsigned?
  split
  · rename_i sign
    have digit := isDigit_of_mem_repr '+' (sign ▸ List.mem_cons_self)
    contradiction
  · exact word?_repr fits

theorem ReturnField.read_ofNames (names : List String) :
    read (.ofNames names) = .ok (names.map .plain) := by
  rw [Json.ofNames, read]
  induction names with
  | nil => rfl
  | cons name rest ih =>
    rw [List.map_cons, List.mapM_cons, ih]
    rfl

/-- As long as the numbers fit a word they only count. -/
theorem ReturnField.read_ofNumberedNames {first : Nat} {names : List String}
    (fits : first + names.length ≤ Text.wordSize) :
    read (.ofNumberedNames first names) = .ok (names.map .plain) := by
  rw [Json.ofNumberedNames, read]
  induction names generalizing first with
  | nil => rfl
  | cons name rest ih =>
    rw [List.length_cons] at fits
    have number : Text.unsigned? first.repr = some first := Text.unsigned?_repr (by omega)
    have here : ofEntry first.repr (.string name) = .ok (.plain name) := by
      rw [ofEntry, number]
      rfl
    rw [List.zipIdx_cons, List.map_cons, List.mapM_cons, here, ih (by omega)]
    rfl

end Names

/-- A row comes back as it is when nothing is asked for. Otherwise the output keys stand in the
order of the request, each with the value, or null, of the last field that asks for it, and with no
value that was not asked for under it; the order of the row makes no difference. Names in a list
and names under the numbers from zero on ask for the same of every row. -/
theorem projectRow_projects (row : Json.Members) (fields : List ReturnField) :
    (fields = [] → projectRow row fields = row) ∧
    (fields ≠ [] →
      (∀ result, Projects row fields result ↔ result = projectRow row fields) ∧
        (∀ key value, (projectRow row fields).get? key = some value →
          ∃ field ∈ fields, field.outputKey = key ∧ value = field.valueIn row) ∧
        ∀ other : Json.Members, row.keys.Nodup → other.Perm row →
          projectRow other fields = projectRow row fields) ∧
    ∀ names : List String, names.length < Text.wordSize → ∃ asked,
      ReturnField.read (.ofNames names) = .ok asked ∧
        ReturnField.read (.ofNumberedNames 0 names) = .ok asked ∧ asked = names.map .plain := by
  refine ⟨?_, fun asked => ⟨fun result => ⟨?_, ?_⟩, ?_, ?_⟩, ?_⟩
  · rintro rfl
    rfl
  · exact fun projects => (projects_projectRow asked row).unique projects
  · rintro rfl
    exact projects_projectRow asked row
  · intro key value found
    exact (projects_projectRow asked row).exists_field found
  · intro other distinct same
    exact projectRow_of_perm asked distinct same
  · intro names fits
    have fits : 0 + names.length ≤ Text.wordSize := by omega
    exact ⟨_, ReturnField.read_ofNames names, ReturnField.read_ofNumberedNames fits, rfl⟩

namespace TitledRow

def row : Json.Members :=
  [("title", .string "Food drive"), ("id", .ofNat 4), ("active", .bool true)]

/-- An alias that is also a field, asked for before it, and a field that the row lacks. -/
def fields : List ReturnField :=
  [.aliased "title" "id", .plain "active", .plain "id", .aliased "start" "active"]

end TitledRow

open TitledRow in
theorem projectRow_projects_titledRow :
    (projectRow row fields).keys = ["id", "active"] ∧
      (projectRow row fields).get? "id" = some (.ofNat 4) ∧
      (projectRow row fields).get? "active" = some .null ∧
      projectRow row.reverse fields = projectRow row fields ∧
      ReturnField.read (.ofNumberedNames 0 ["id", "title", "id"]) =
        .ok [.plain "id", .plain "title", .plain "id"] := by
  obtain ⟨_, asked, named⟩ := projectRow_projects row fields
  obtain ⟨exactly, _, same⟩ := asked (by decide)
  obtain ⟨keys, values⟩ := (exactly _).mpr rfl
  have distinct : row.keys.Nodup := by decide
  have id := values [.aliased "title" "id", .plain "active"] (.plain "id")
    [.aliased "start" "active"] rfl (by decide)
  have active := values [.aliased "title" "id", .plain "active", .plain "id"]
    (.aliased "start" "active") [] rfl (by decide)
  obtain ⟨_, _, numbered, rfl⟩ := named ["id", "title", "id"] (by decide)
  exact ⟨keys, id, active, same row.reverse distinct row.reverse_perm, numbered⟩

end SelectCompiler
