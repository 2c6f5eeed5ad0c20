import SelectCompiler.Proofs.Predicate.Spelling
import SelectCompiler.Proofs.Statement.Composition

/-!
Statement documents without a filter. With an empty filter written out such a document takes a
composed filter as any other does. Without it the document itself is read as the filter, and its
sections become predicates.
-/

namespace SelectCompiler

namespace Predicate

variable {hint : TypeHint}

/-- In a label map every entry is one predicate. -/
theorem readEntries_forall₂ : ∀ entries : List (String × Json),
    (∀ entry ∈ entries, IsLabel entry.1) →
    Yields (List.Forall₂ (fun entry node => readNode hint entry.2 = .ok node) entries)
      (readEntries hint entries)
  | [], _ => .ok .nil
  | (key, item) :: rest, labels => by
    obtain ⟨label, others⟩ := List.forall_mem_cons.mp labels
    intro tree read
    simp only [readEntries, buildEntry, label.role, bind_eq_ok_iff, pure_eq_ok_iff] at read
    obtain ⟨node, here, more, later, rfl⟩ := read
    exact .cons here (readEntries_forall₂ rest others more later)

theorem readEntries_ne_nil {entries : List (String × Json)} (filled : entries ≠ []) :
    Yields (· ≠ []) (readEntries hint entries) := by
  obtain ⟨⟨key, item⟩, rest, rfl⟩ := List.exists_cons_of_ne_nil filled
  intro tree read
  simp only [readEntries, bind_eq_ok_iff, pure_eq_ok_iff] at read
  obtain ⟨node, _, more, _, rfl⟩ := read
  exact List.cons_ne_nil node more

/-- Something with entries is never read as the empty filter. -/
theorem readBody_object_ne_nil {members : Json.Members} (filled : members ≠ []) :
    Yields (· ≠ []) (readBody hint (.object members)) := by
  cases found : Shape.ofMembers? hint members with
  | some shape =>
    rw [readBody_shaped found]
    intro tree read
    obtain ⟨node, _, alone⟩ := bind_eq_ok_iff.mp read
    rw [pure_eq_ok_iff.mp alone]
    exact List.cons_ne_nil node []
  | none =>
    rw [readBody_plain found]
    exact readEntries_ne_nil filled

end Predicate

/-- A document with a filter behind its other members. -/
def documentWith (members : Json.Members) (filter : Json) : Json :=
  .object (members ++ [(filterKey, filter)])

section Unfiltered

open Predicate

variable {wrap : Option Connective} {members : Json.Members} {addition : Json}
  {settings : Settings} {statement : Statement} {added : PredicateTree}

theorem documentWith_eq_insert (missing : members.get? filterKey = none) (filter : Json) :
    documentWith members filter = .object (members.insert filterKey filter) := by
  rw [documentWith, Json.Members.insert_of_get?_eq_none missing]

theorem Document.filter_of_missing (missing : members.get? filterKey = none) {document : Document}
    (read : Document.read (.object members) = .ok document) : document.filter = .null := by
  simp only [Document.read, missing, bind_eq_ok_iff, pure_eq_ok_iff] at read
  obtain ⟨_, _, _, _, _, _, _, _, rfl⟩ := read
  rfl

/-- What is merged into the statement of a document without a filter is its filter. -/
theorem filteredQuery_of_lowered (missing : members.get? filterKey = none)
    (lowered : Document.read (.object members) >>= (Document.toStatement · settings) =
      .ok statement) :
    filteredQuery settings (.object members) (PredicateTree.compose wrap [] added) =
      (statement.mergeFilter added wrap).compile := by
  obtain ⟨document, read, described⟩ := bind_eq_ok_iff.mp lowered
  rw [Document.toStatement_eq, Document.filter_of_missing missing read] at described
  obtain ⟨base, unfiltered, built⟩ := bind_eq_ok_iff.mp described
  have empty : statement = base.setFilter [] := Except.ok.inj built.symm
  rw [filteredQuery, read, empty]
  change (document.unfiltered settings >>= fun other => _) = _
  rw [unfiltered]
  rfl

/-- Without a filter a description is its own filter, and the result is a filter too. -/
theorem composeJson_of_missing (missing : members.get? filterKey = none)
    (more : PredicateTree.read .string (filterIn addition) = .ok added) :
    composeJson wrap (.object members) addition =
      (fun tree => (PredicateTree.compose wrap tree added).toJson) <$>
        PredicateTree.read .string (.object members) := by
  have bare : ∀ others, Json.object members = .object others →
      Json.Members.get? others filterKey = none := by
    intro others same
    rwa [← Json.object.inj same]
  have itself : filterIn (.object members) = .object members := by
    rw [filterIn, missing, Option.getD_none]
  rw [composeJson_eq, itself, more, map_eq_pure_bind]
  exact bind_congr fun tree => congrArg Except.ok (Json.withFilter_bare bare)

/-- A document without a filter composes with an empty one written out: all its members stay, the
filter is the composed one, and the query is that of the merged statement. Without it the document
never composes as a statement. It is refused where it cannot be read as a filter itself, and the
result is a filter otherwise, in which each of its sections is a predicate. -/
theorem composeJson_unfiltered (wrap : Option Connective) (missing : members.get? filterKey = none)
    (lowered : Document.read (.object members) >>= (Document.toStatement · {}) = .ok statement)
    (more : PredicateTree.read .string (filterIn addition) = .ok added) :
    (composeJson wrap (documentWith members .null) addition =
        .ok (documentWith members (PredicateTree.compose wrap [] added).toJson) ∧
      compileDocument {} (documentWith members (PredicateTree.compose wrap [] added).toJson) =
        (statement.mergeFilter added wrap).compile) ∧
    (∀ fault, composeJson wrap (.object members) addition = .error fault ↔
      PredicateTree.read .string (.object members) = .error fault) ∧
    ∀ composed, composeJson wrap (.object members) addition = .ok composed →
      (∀ settings, compileDocument settings composed =
        .error (.configuration (.documentNotObject composed))) ∧
      ∃ tree, PredicateTree.read .string (.object members) = .ok tree ∧ tree ≠ [] ∧
        composed = (PredicateTree.compose wrap tree added).toJson ∧
        ((∀ member ∈ members, IsLabel member.1) →
          List.Forall₂ (fun member node => readNode .string member.2 = .ok node) members tree) := by
  have filled : members ≠ [] := by
    rintro rfl
    cases lowered
  refine ⟨⟨?_, ?_⟩, fun fault => ?_, fun composed done => ?_⟩
  · have carried : (members.insert filterKey .null).get? filterKey = some .null :=
      members.get?_insert_self _
    rw [documentWith_eq_insert missing, documentWith_eq_insert missing]
    refine (composeJson_eq_ok_iff carried).mpr ⟨[], added, rfl, more, ?_⟩
    rw [Json.Members.insert_insert]
  · have empty : PredicateTree.read .string .null = .ok [] := rfl
    rw [← filteredQuery_of_lowered missing lowered, documentWith_eq_insert missing]
    exact compileDocument_composed empty more
  · rw [composeJson_of_missing missing more]
    cases PredicateTree.read .string (.object members) <;> simp [Functor.map, Except.map]
  · rw [composeJson_of_missing missing more] at done
    obtain ⟨tree, read, shaped⟩ := map_eq_ok_iff.mp done
    refine ⟨fun settings => ?_, tree, read, readBody_object_ne_nil filled tree read, shaped,
      fun labels => ?_⟩
    · rw [shaped]
      rfl
    · have entries : readBody .string (.object members) = readEntries .string members :=
        readBody_plain (Shape.ofMembers?_labels labels)
      exact readEntries_forall₂ members labels tree (entries.symm.trans read)

end Unfiltered

namespace WithoutFilter

def sections : Json.Members :=
  [("SELECTS", .object [("a", .array [.string "id"])]), ("TABLES", .array [.string "a"])]

def statement : Statement :=
  { selection := some (.columns [("a", [.name "id"])]), tables := [.ofText "a"] }

def added : PredicateTree :=
  [.leaf ⟨"a.x", "=", some (.ofNat 1), .string, .and⟩]

/-- A text that has become a predicate. -/
def rawText (sql : String) : Json :=
  .object [("sql", .string sql), ("conj", .string "AND")]

end WithoutFilter

open WithoutFilter in
theorem composeJson_unfiltered_sections :
    ∃ composed tree, composeJson (some .or) (documentWith sections .null) (.array [untypedTest]) =
        .ok composed ∧
      compileDocument {} composed =
        .ok ⟨"SELECT a.id FROM a WHERE (a.x = %0)", [⟨0, .ofNat 1, .string⟩], 1⟩ ∧
      PredicateTree.read .string (.object sections) = .ok tree ∧ tree.length = 2 := by
  have lowered : Document.read (.object sections) >>= (Document.toStatement · {}) =
      .ok statement := by
    decide +kernel
  have more : PredicateTree.read .string (filterIn (.array [untypedTest])) = .ok added := by
    decide +kernel
  have labels : ∀ member ∈ sections, Predicate.IsLabel member.1 := by
    simp only [sections, List.forall_mem_cons, List.not_mem_nil, false_implies, implies_true,
      and_true]
    constructor <;> constructor <;> decide +kernel
  have bare : composeJson (some .or) (.object sections) (.array [untypedTest]) =
      .ok (.array [rawText "id", rawText "a",
        .object [("conj", .string "OR"), ("children", .array [composedTest])]]) := by
    decide +kernel
  obtain ⟨⟨done, compiled⟩, _, without⟩ :=
    composeJson_unfiltered (some .or) (by decide +kernel) lowered more
  obtain ⟨_, tree, read, _, _, sectioned⟩ := without _ bare
  refine ⟨_, tree, done, ?_, read, (sectioned labels).length_eq.symm⟩
  rw [compiled]
  decide +kernel

open WithoutFilter in
/-- The column and the table become predicates, and the result is no statement. -/
theorem unfiltered_sections_composed :
    Document.read (.object sections) >>= (Document.toStatement · {}) = .ok statement ∧
      composeJson none (.object sections) (.array [untypedTest]) =
        .ok (.array [rawText "id", rawText "a", composedTest]) := by
  decide +kernel

end SelectCompiler
