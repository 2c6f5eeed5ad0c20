import SelectCompiler.Proofs.Predicate.Composition
import SelectCompiler.Proofs.Predicate.DefaultHint
import SelectCompiler.Proofs.Statement.Revision
import SelectCompiler.Statement.Document

/-!
Statement documents with composed filters. A filter goes into a document in its canonical form,
which names the type of every test. So a composed document compiles to the query that composing the
filters of statements gives, but the tests that named no type are strings in it, whatever type is
the default when it is compiled.
-/

namespace SelectCompiler

namespace Document

variable {members : Json.Members} {filter : Json}

/-- The statement of a document without its filter. -/
def unfiltered (document : Document) (settings : Settings) : Except Error Statement :=
  { document with filter := .null }.toStatement settings

theorem toStatement_eq (document : Document) (settings : Settings) :
    document.toStatement settings = do
      let statement ← document.unfiltered settings
      return statement.setFilter (← PredicateTree.read settings.defaultHint document.filter) := by
  unfold unfiltered toStatement
  cases document.selects with
  | none => rfl
  | some selects =>
    dsimp only
    split
    · rfl
    · simp only [bind_assoc]
      rfl

/-- A document with a filter is read as it would be without one, but for the filter. -/
theorem read_eq (carried : members.get? filterKey = some filter) :
    read (.object members) =
      (fun document => { document with filter := filter }) <$> read (.object members) := by
  simp only [read, carried, map_bind]
  rfl

theorem unfiltered_read_insert (settings : Settings) :
    (read (.object (members.insert filterKey filter)) >>= (unfiltered · settings)) =
      read (.object members) >>= (unfiltered · settings) := by
  simp (disch := decide) only [read, sectionAt, bind_assoc, Json.Members.get?_insert_of_ne]
  rfl

end Document

/-- The query of what a document describes, with another filter in place of its own. -/
def filteredQuery (settings : Settings) (document : Json) (filter : PredicateTree) :
    Except Error Query := do
  let statement ← (← Document.read document).unfiltered settings
  (statement.setFilter filter).compile

/-- The query of the statement that a document describes, once the filter that an addition describes
has been merged into it. -/
def mergedQuery (settings : Settings) (wrap : Option Connective) (base addition : Json) :
    Except Error Query := do
  let statement ← (← Document.read base).toStatement settings
  let tree ← PredicateTree.read settings.defaultHint (filterIn addition)
  (statement.mergeFilter tree wrap).compile

section Queries

variable {settings : Settings} {members : Json.Members} {filter addition : Json}
  {tree added : PredicateTree} {wrap : Option Connective}

theorem mergedQuery_eq_filteredQuery (carried : members.get? filterKey = some filter)
    (described : PredicateTree.read settings.defaultHint filter = .ok tree)
    (more : PredicateTree.read settings.defaultHint (filterIn addition) = .ok added) :
    mergedQuery settings wrap (.object members) addition =
      filteredQuery settings (.object members) (PredicateTree.compose wrap tree added) := by
  rw [mergedQuery, Document.read_eq carried, bind_map_left, filteredQuery]
  refine bind_congr fun document => ?_
  rw [Document.toStatement_eq, described, more, bind_assoc]
  rfl

theorem compileDocument_eq_filteredQuery (carried : members.get? filterKey = some filter)
    (described : PredicateTree.read settings.defaultHint filter = .ok tree) :
    compileDocument settings (.object members) = filteredQuery settings (.object members) tree := by
  rw [compileDocument, Document.read_eq carried, bind_map_left, filteredQuery]
  refine bind_congr fun document => ?_
  rw [Document.compile, Document.toStatement_eq, described, bind_assoc]
  rfl

theorem filteredQuery_insert :
    filteredQuery settings (.object (members.insert filterKey filter)) tree =
      filteredQuery settings (.object members) tree := by
  unfold filteredQuery
  rw [← bind_assoc, Document.unfiltered_read_insert, bind_assoc]

theorem filteredQuery_typed (hint : TypeHint) (document : Json) :
    filteredQuery settings document (PredicateTree.revise (.typed hint) tree) =
      Query.mapParameters (fun parameter =>
        { parameter with hint := parameter.hint.withFallback hint }) <$>
          filteredQuery settings document tree := by
  unfold filteredQuery
  simp only [map_bind]
  refine bind_congr fun _ => bind_congr fun statement => ?_
  have typed : Revision.typed hint = ⟨Option.map id, (·.withFallback hint)⟩ := by
    rw [Option.map_id]
    rfl
  rw [typed]
  exact (statement.setFilter tree).compile_revise fun _ =>
    Where.rewrites_pointwise (fun _ => Iff.rfl) fun _ => rfl

/-- A document takes a composed filter in its canonical form. -/
theorem composeJson_eq_ok_iff (carried : members.get? filterKey = some filter) {composed : Json} :
    composeJson wrap (.object members) addition = .ok composed ↔
      ∃ tree added, PredicateTree.read .string filter = .ok tree ∧
        PredicateTree.read .string (filterIn addition) = .ok added ∧
        composed = .object (members.insert filterKey
          (PredicateTree.compose wrap tree added).toJson) := by
  have carries : (members.get? filterKey).isSome = true := Option.isSome_of_eq_some carried
  rw [composeJson_eq, filterIn_object carried]
  simp only [Json.withFilter_object carries, bind_eq_ok_iff, pure_eq_ok_iff]
  grind

/-- A composed document has the query of its parts, read with strings as the default. -/
theorem compileDocument_composed (described : PredicateTree.read .string filter = .ok tree)
    (more : PredicateTree.read .string (filterIn addition) = .ok added) :
    compileDocument settings (.object (members.insert filterKey
        (PredicateTree.compose wrap tree added).toJson)) =
      filteredQuery settings (.object members) (PredicateTree.compose wrap tree added) := by
  have kept := read_compose_toJson wrap described more settings.defaultHint
  rw [compileDocument_eq_filteredQuery (members.get?_insert_self _) kept, filteredQuery_insert]

end Queries

/-- The queries are the same, but a parameter that has the fallback as its type in the second may
be a string in the first. -/
structure Query.Retypes (fallback : TypeHint) (first second : Query) : Prop where
  sql : first.sql = second.sql
  next : first.next = second.next
  parameters : List.Forall₂ (fun one another => one.index = another.index ∧
    one.value = another.value ∧
      (one.hint = another.hint ∨ one.hint = .string ∧ another.hint = fallback))
    first.parameters second.parameters

theorem Query.retypes_mapParameters (fallback : TypeHint) (query : Query) :
    Query.Retypes fallback
      (query.mapParameters fun parameter =>
        { parameter with hint := parameter.hint.withFallback .string })
      (query.mapParameters fun parameter =>
        { parameter with hint := parameter.hint.withFallback fallback }) where
  sql := rfl
  next := rfl
  parameters := by
    refine List.forall₂_map_left_iff.mpr (List.forall₂_map_right_iff.mpr ?_)
    refine List.forall₂_same.mpr fun parameter _ => ⟨rfl, rfl, ?_⟩
    dsimp only
    unfold TypeHint.withFallback
    split
    · exact .inr ⟨rfl, rfl⟩
    · exact .inl rfl

/-- A document composed with an addition compiles, whatever type is the default, to the query of the
merged statement that has strings as the default. So it has the query of the merged statement under
its own default, except that a parameter may be a string where it has the default type there; the
queries are one if both filters are read alike under the two defaults. An empty addition makes
strings the default and changes nothing else. -/
theorem compileDocument_composeJson {members : Json.Members} {wrap : Option Connective}
    {addition composed : Json} (carries : (members.get? filterKey).isSome = true)
    (done : composeJson wrap (.object members) addition = .ok composed) (settings : Settings) :
    compileDocument settings composed =
        mergedQuery { settings with defaultHint := .string } wrap (.object members) addition ∧
      ((∃ fault, compileDocument settings composed = .error fault ∧
          mergedQuery settings wrap (.object members) addition = .error fault) ∨
        ∃ query other, compileDocument settings composed = .ok query ∧
          mergedQuery settings wrap (.object members) addition = .ok other ∧
          query.Retypes settings.defaultHint other) ∧
      ((∀ filter ∈ [filterIn (.object members), filterIn addition],
          PredicateTree.read settings.defaultHint filter = PredicateTree.read .string filter) →
        compileDocument settings composed =
          mergedQuery settings wrap (.object members) addition) ∧
      (PredicateTree.read .string (filterIn addition) = .ok [] →
        compileDocument settings composed =
          compileDocument { settings with defaultHint := .string } (.object members)) := by
  obtain ⟨filter, carried⟩ := Option.isSome_iff_exists.mp carries
  obtain ⟨tree, added, described, more, rfl⟩ := (composeJson_eq_ok_iff carried).mp done
  have within : filterIn (.object members) = filter := by rw [filterIn, carried, Option.getD_some]
  have compiled : compileDocument settings (.object (members.insert filterKey
        (PredicateTree.compose wrap tree added).toJson)) =
      filteredQuery settings (.object members) (PredicateTree.compose wrap tree added) :=
    compileDocument_composed described more
  refine ⟨?_, ?_, fun named => ?_, fun empty => ?_⟩
  · rw [compiled, mergedQuery_eq_filteredQuery carried described more]
    rfl
  · obtain ⟨untyped, read, rfl⟩ := PredicateTree.read_eq_ok_iff_typed.mp described
    obtain ⟨untyped', read', rfl⟩ := PredicateTree.read_eq_ok_iff_typed.mp more
    have merged : mergedQuery settings wrap (.object members) addition = _ :=
      mergedQuery_eq_filteredQuery carried
        (PredicateTree.read_eq_ok_iff_typed.mpr ⟨_, read, rfl⟩)
        (PredicateTree.read_eq_ok_iff_typed.mpr ⟨_, read', rfl⟩)
    rw [compiled, merged, ← PredicateTree.revise_compose, ← PredicateTree.revise_compose,
      filteredQuery_typed, filteredQuery_typed]
    cases filteredQuery settings (.object members) (PredicateTree.compose wrap untyped untyped')
      with
    | error fault => exact .inl ⟨fault, rfl, rfl⟩
    | ok query => exact .inr ⟨_, _, rfl, rfl, query.retypes_mapParameters _⟩
  · rw [within, List.forall_mem_cons, List.forall_mem_singleton] at named
    rw [compiled, mergedQuery_eq_filteredQuery carried (named.1.trans described)
      (named.2.trans more)]
  · rw [more] at empty
    cases empty
    have alone : PredicateTree.compose wrap tree [] = tree := by cases wrap <;> rfl
    rw [compiled, alone, compileDocument_eq_filteredQuery carried described]
    rfl

/-- A statement with this filter. -/
def selectingWhere (filter : List Json) : Json :=
  .object [("SELECTS", .object [("a", .array [.string "id"])]),
    ("TABLES", .array [.string "a"]), ("WHERES", .array filter)]

/-- A test that names no type. -/
def untypedTest : Json := .object [("field", .string "a.x"), ("value", .ofNat 1)]

/-- The same test once it has been composed with something. -/
def composedTest : Json :=
  .object [("field", .string "a.x"), ("comp", .string "="), ("value", .ofNat 1),
    ("type", .string "String"), ("conj", .string "AND")]

theorem compileDocument_composeJson_untypedTest :
    ∃ composed query other,
      composeJson (some .or) (selectingWhere [untypedTest]) (.string "a.y") = .ok composed ∧
      compileDocument { defaultHint := .integer } composed = .ok query ∧
      mergedQuery { defaultHint := .integer } (some .or) (selectingWhere [untypedTest])
        (.string "a.y") = .ok other ∧
      query.sql = "SELECT a.id FROM a WHERE a.x = %0 OR (a.y)" ∧ query.Retypes .integer other := by
  have done : composeJson (some .or) (selectingWhere [untypedTest]) (.string "a.y") =
      .ok (selectingWhere [composedTest, .object [("conj", .string "OR"), ("children", .array
        [.object [("sql", .string "a.y"), ("conj", .string "AND")]])]]) := by
    decide +kernel
  have merged : mergedQuery { defaultHint := .integer } (some .or) (selectingWhere [untypedTest])
      (.string "a.y") = .ok ⟨"SELECT a.id FROM a WHERE a.x = %0 OR (a.y)",
        [⟨0, .ofNat 1, .integer⟩], 1⟩ := by
    decide +kernel
  obtain ⟨_, ⟨_, _, failed⟩ | ⟨query, other, compiled, found, retypes⟩, _⟩ :=
    compileDocument_composeJson rfl done { defaultHint := .integer }
  · cases failed.symm.trans merged
  · obtain rfl := Except.ok.inj (found.symm.trans merged)
    exact ⟨_, query, _, done, compiled, merged, retypes.sql, retypes⟩

/-- Composed with nothing, a test that names no type is no longer of the default type. -/
theorem composed_with_nothing_retyped :
    composeJson none (selectingWhere [untypedTest]) (.array []) =
        .ok (selectingWhere [composedTest]) ∧
      compileDocument { defaultHint := .integer } (selectingWhere [composedTest]) ≠
        mergedQuery { defaultHint := .integer } none (selectingWhere [untypedTest]) (.array []) ∧
      compileDocument { defaultHint := .integer } (selectingWhere [composedTest]) ≠
        compileDocument { defaultHint := .integer } (selectingWhere [untypedTest]) := by
  decide +kernel

end SelectCompiler
