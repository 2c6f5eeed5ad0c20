import SelectCompiler.Proofs.Join.Mentions
import SelectCompiler.Proofs.Join.Stability
import SelectCompiler.Proofs.Statement.Rendering
import SelectCompiler.Proofs.Text.Numeral
import SelectCompiler.Proofs.Where.Alternatives
import SelectCompiler.Statement.ImpactArea

/-!
The search for projects by impact area, for any names of its table and column. The joins find their
places as they are listed, so strict settings do not matter, and the filter has one test for each
area.
-/

namespace SelectCompiler

open Join (named isPlain)

namespace ImpactAreaSchema

/-- The table has a name of ASCII letters, digits and underscores that the search does not use for
another table, and no blank follows the name of the column. -/
structure WellNamed (schema : ImpactAreaSchema) : Prop where
  filled : schema.table ≠ ""
  word : ∀ c ∈ schema.table.toList, (c.isAlphanum || c == '_') = true
  notOrganizations : schema.table ≠ "orgs"
  notContacts : schema.table ≠ projectContacts
  column : ∀ c ∈ schema.column.toList.getLast?, Text.isBlank c = false

variable {schema : ImpactAreaSchema} {relationshipType : Int}

def field (schema : ImpactAreaSchema) : String := schema.table ++ "." ++ schema.column

def ownCondition (schema : ImpactAreaSchema) : String :=
  "orgs.id = " ++ schema.table ++ ".entity_id"

def contactsCondition (relationshipType : Int) : String :=
  "orgs.id = " ++ projectContacts ++ ".contact_id AND " ++ projectContacts
    ++ ".relationship_type_id = " ++ Text.decimal relationshipType

def organizations (schema : ImpactAreaSchema) : Join :=
  (Join.unary .inner schema.table schema.ownCondition).fromTable "civicrm_contact orgs"

def contacts (relationshipType : Int) : Join :=
  .unary .inner projectContacts (contactsCondition relationshipType)

/-- The search with its placeholders numbered from an offset, under lenient or strict settings. -/
def search (schema : ImpactAreaSchema) (relationshipType : Int) (areas : List Json) (offset : Nat)
    (strict : Bool) : Statement :=
  { projectsByImpactArea schema relationshipType areas with
    offset := offset
    strictJoins := strict }

/-- The chain when its first pair of tables is there. -/
def pair (schema : ImpactAreaSchema) : Chain where
  links := [.table "civicrm_contact orgs", .step .inner schema.table [schema.ownCondition]]
  introduced := [("orgs", 0), (schema.table, 1)]
  residual := []

/-- The chain of the search: contacts as organizations, their impact areas, their projects. -/
def chain (schema : ImpactAreaSchema) (relationshipType : Int) : Chain where
  links := [.table "civicrm_contact orgs", .step .inner schema.table [schema.ownCondition],
    .step .inner projectContacts [contactsCondition relationshipType]]
  introduced := [("orgs", 0), (schema.table, 1), (projectContacts, 2)]
  residual := []

section Contacts

variable (relationshipType : Int)

theorem contactsCondition_eq :
    contactsCondition relationshipType =
      ("orgs.id = civicrm_volunteer_project_contact.contact_id AND "
        ++ "civicrm_volunteer_project_contact.relationship_type_id =")
        ++ " " ++ Text.decimal relationshipType :=
  congrArg (· ++ Text.decimal relationshipType) (by decide)

theorem contacts_eq :
    contacts relationshipType =
      ⟨.inner, none, ⟨[projectContacts]⟩, contactsCondition relationshipType⟩ := by
  have table : TableRef.ofText projectContacts = ⟨[projectContacts]⟩ := by decide +kernel
  have trimmed : Text.trim (contactsCondition relationshipType) =
      contactsCondition relationshipType := by
    rw [contactsCondition_eq]
    exact Text.trim_append_blank (by decide +kernel) (by decide) Text.trim_decimal
      Text.decimal_ne_empty
  rw [contacts, Join.unary, table, trimmed]

theorem named_contactsCondition :
    named (contactsCondition relationshipType).toList =
      ["orgs", projectContacts, projectContacts] := by
  have chars : (contactsCondition relationshipType).toList =
      ("orgs.id = civicrm_volunteer_project_contact.contact_id AND "
        ++ "civicrm_volunteer_project_contact.relationship_type_id =").toList
        ++ ' ' :: (Text.decimal relationshipType).toList := by
    rw [contactsCondition_eq, String.toList_append, String.toList_append, List.append_assoc]
    rfl
  have pointless : '.' ∉ (Text.decimal relationshipType).toList := by
    intro member
    rcases Text.mem_decimal '.' member with digit | minus <;> contradiction
  rw [chars, Join.named_append_cons (by decide), Join.named_of_pointless pointless]
  decide +kernel

end Contacts

namespace WellNamed

variable (wellNamed : schema.WellNamed)

include wellNamed

theorem alphanumeric_or : ∀ c ∈ schema.table.toList, c.isAlphanum = true ∨ c = '_' := by
  simpa using wellNamed.word

theorem visible : ∀ c ∈ schema.table.toList, Text.isBlank c = false := by
  intro c member
  rcases wellNamed.alphanumeric_or c member with alphanumeric | rfl
  · exact Text.isBlank_of_isAlphanum alphanumeric
  · decide

theorem ofText_table : TableRef.ofText schema.table = ⟨[schema.table]⟩ := by
  rw [TableRef.ofText, Text.words_of_isWord ⟨wellNamed.filled, wellNamed.visible⟩]

theorem isPlain_table : isPlain schema.table = true := by
  rw [Join.isPlain_iff]
  constructor
  · intro c member
    rcases wellNamed.alphanumeric_or c member with alphanumeric | rfl
    · constructor
      · simp [Join.isTokenChar, alphanumeric]
      · rintro rfl
        contradiction
    · decide
  · apply Join.unquoted_of_bare
    intro c member
    rw [Bool.eq_false_iff]
    intro quote
    rw [Join.isQuote, Bool.or_eq_true, beq_iff_eq, beq_iff_eq] at quote
    have plain := wellNamed.word c member
    rcases quote with rfl | rfl <;> exact absurd plain (by decide)

/-- No blank is at either end of the field, also if the column has no name. -/
theorem trim_field : Text.trim schema.field = schema.field := by
  obtain ⟨c, rest, chars⟩ :=
    List.exists_cons_of_ne_nil (mt String.toList_eq_nil_iff.mp wellNamed.filled)
  have visible := wellNamed.visible
  rw [chars, List.forall_mem_cons] at visible
  have whole : schema.field.toList = (c :: rest) ++ '.' :: schema.column.toList := by
    simp [field, chars]
  rw [Text.trim_eq_self_iff, whole, List.getLast?_append_of_ne_nil _ (by simp), List.getLast?_cons]
  constructor
  · simpa using visible.1
  · have column := wellNamed.column
    cases ending : schema.column.toList.getLast? with
    | none =>
      simp only [Option.getD_none, Option.mem_some_iff, forall_eq']
      decide
    | some c =>
      rw [ending] at column
      simpa using column

theorem trim_ownCondition : Text.trim schema.ownCondition = schema.ownCondition := by
  have whole : schema.ownCondition = "orgs.id =" ++ " " ++ (schema.table ++ ".entity_id") := by
    rw [ownCondition, String.append_assoc, String.append_assoc]
    rfl
  have visible : ∀ c ∈ (schema.table ++ ".entity_id").toList, Text.isBlank c = false := by
    intro c member
    rw [String.toList_append, List.mem_append] at member
    rcases member with own | rest
    · exact wellNamed.visible c own
    · have plain : ".entity_id".toList.all (!Text.isBlank ·) = true := by decide
      simpa using List.all_eq_true.mp plain c rest
  rw [whole]
  exact Text.trim_append_blank (by decide +kernel) (by decide) (Text.trim_of_visible visible)
    (by simp)

theorem named_ownCondition : named schema.ownCondition.toList = ["orgs", schema.table] := by
  have chars : schema.ownCondition.toList =
      "orgs.id =".toList ++ ' ' :: (schema.table.toList ++ '.' :: "entity_id".toList) := by
    simp [ownCondition]
  have first : named "orgs.id =".toList = ["orgs"] := by decide +kernel
  rw [chars, Join.named_append_cons (by decide), first,
    Join.named_column wellNamed.isPlain_table (List.all_eq_true.mp (by decide))]
  rfl

theorem organizations_eq :
    schema.organizations =
      ⟨.inner, some ⟨["civicrm_contact", "orgs"]⟩, ⟨[schema.table]⟩, schema.ownCondition⟩ := by
  have contacts : TableRef.ofText "civicrm_contact orgs" = ⟨["civicrm_contact", "orgs"]⟩ := by
    decide +kernel
  rw [organizations, Join.unary, Join.fromTable, wellNamed.ofText_table,
    wellNamed.trim_ownCondition, contacts]

theorem not_depends (known : List String) : schema.organizations.dependencies known = [] := by
  rw [List.eq_nil_iff_forall_not_mem]
  intro key depends
  rw [wellNamed.organizations_eq] at depends
  obtain ⟨mentioned, foreign⟩ := Join.mem_dependencies_iff.mp depends
  have own := (Join.mem_qualifiers_iff_named.mp mentioned).2
  rw [wellNamed.named_ownCondition] at own
  exact foreign own

/-- The pair of organizations and impact areas starts the chain. -/
theorem place_organizations (known : List String) :
    Chain.empty.place known schema.organizations = .seed := by
  rw [Chain.place_eq_seed_iff, wellNamed.not_depends]
  exact ⟨rfl, rfl, rfl⟩

theorem accept_organizations :
    Chain.empty.accept schema.organizations .seed = schema.pair := by
  have filled : schema.ownCondition ≠ "" := by simp [ownCondition]
  have start : Chain.empty.pushTable ⟨["civicrm_contact", "orgs"]⟩ =
      ⟨[.table "civicrm_contact orgs"], [("orgs", 0)], []⟩ := by decide +kernel
  have absent : schema.table ∉ ["orgs"] := mt List.mem_singleton.mp wellNamed.notOrganizations
  rw [wellNamed.organizations_eq, Chain.accept, Option.elim_some, start,
    Chain.pushStep_of_not_mem]
  · simp only [TableRef.sql, String.intercalate_singleton]
    rfl
  · exact filled
  · exact absent

theorem contacts_not_mem : projectContacts ∉ schema.pair.keys := by
  intro present
  rcases List.mem_cons.mp present with organizations | same
  · exact absurd organizations (by decide)
  · exact wellNamed.notContacts (List.mem_singleton.mp same).symm

/-- The contacts find their organizations in the chain. -/
theorem place_contacts (known : List String) (relationshipType : Int) :
    schema.pair.place known (contacts relationshipType) = .introduce ⟨[projectContacts]⟩ := by
  rw [Chain.place_eq_introduce_iff, contacts_eq]
  refine ⟨rfl, ?_, List.mem_singleton_self _, ?_, nofun⟩
  · intro key depends
    obtain ⟨mentioned, foreign⟩ := Join.mem_dependencies_iff.mp depends
    have named := (Join.mem_qualifiers_iff_named.mp mentioned).2
    rw [named_contactsCondition] at named
    rcases List.mem_cons.mp named with rfl | own
    · exact List.mem_cons_self
    · have contacts : key = projectContacts := by simpa using own
      exact absurd (List.mem_singleton.mpr contacts) foreign
  · exact wellNamed.contacts_not_mem

theorem accept_contacts (relationshipType : Int) :
    schema.pair.accept (contacts relationshipType) (.introduce ⟨[projectContacts]⟩) =
      schema.chain relationshipType := by
  have filled : contactsCondition relationshipType ≠ "" := by simp [contactsCondition]
  rw [contacts_eq, Chain.accept, Chain.pushStep_of_not_mem]
  · simp only [TableRef.sql, String.intercalate_singleton]
    rfl
  · exact filled
  · exact wellNamed.contacts_not_mem

theorem takes (known : List String) (relationshipType : Int) :
    Chain.Takes known .empty [schema.organizations, contacts relationshipType]
      (schema.chain relationshipType) := by
  have organizations := wellNamed.place_organizations known
  have contacts := wellNamed.place_contacts known relationshipType
  apply Chain.Takes.cons
  · rw [organizations]
    nofun
  · rw [organizations, wellNamed.accept_organizations]
    apply Chain.Takes.cons
    · rw [contacts]
      nofun
    · rw [contacts, wellNamed.accept_contacts]
      exact .nil _

end WellNamed

theorem sql_chain (relationshipType : Int) :
    (schema.chain relationshipType).sql =
      "civicrm_contact orgs INNER JOIN " ++ schema.table ++ " ON " ++ schema.ownCondition
        ++ " INNER JOIN " ++ projectContacts ++ " ON " ++ contactsCondition relationshipType := by
  have keyword (text : String) :
      " " ++ ("INNER JOIN" ++ (" " ++ text)) = " INNER JOIN " ++ text := by
    rw [← String.append_assoc, ← String.append_assoc]
    rfl
  have start (text : String) :
      "civicrm_contact orgs" ++ (" INNER JOIN " ++ text) =
        "civicrm_contact orgs INNER JOIN " ++ text := by
    rw [← String.append_assoc]
    rfl
  simp [Chain.sql, chain, Link.sql, Link.separator, Link.conditionText, JoinKind.sql,
    String.append_assoc, keyword, start]

variable {areas : List Json} {offset : Nat} {strict : Bool}

theorem selectList_search :
    (schema.search relationshipType areas offset strict).selectList =
      .ok "orgs.id, civicrm_volunteer_project_contact.project_id" := by
  have selection : (schema.search relationshipType areas offset strict).selectList =
      Statement.selectList { selection := some (.columns
        [("orgs", [.name "id"]), (projectContacts, [.name "project_id"])]) } := rfl
  rw [selection]
  decide +kernel

theorem checkSelected_search :
    (schema.search relationshipType areas offset strict).checkSelected
      ["orgs", schema.table, projectContacts] = .ok () := by
  simp [Statement.checkSelected, search, projectsByImpactArea]

end ImpactAreaSchema

open ImpactAreaSchema in
/-- The search has a query for every well-named table and column and for any number of areas for
which indices are left, under strict settings too. Its joins are placed as they are listed, and its
filter tests the column for each of the areas. -/
theorem projectsByImpactArea_compiles {schema : ImpactAreaSchema} {areas : List Json} {offset : Nat}
    (wellNamed : schema.WellNamed) (bindable : ∀ area ∈ areas, area.isBindable = true)
    (fits : offset + areas.length < Text.wordSize) (relationshipType : Int) (strict : Bool) :
    let statement : Statement :=
      { projectsByImpactArea schema relationshipType areas with
        offset := offset
        strictJoins := strict }
    ∃ resolution query,
      resolveJoins statement.strictJoins statement.tables statement.joins = .ok resolution ∧
      resolution.chain.links =
        [.table "civicrm_contact orgs", .step .inner schema.table [schema.ownCondition],
          .step .inner projectContacts [contactsCondition relationshipType]] ∧
      resolution.fromClause =
        "civicrm_contact orgs INNER JOIN " ++ schema.table ++ " ON " ++ schema.ownCondition
          ++ " INNER JOIN " ++ projectContacts ++ " ON " ++ contactsCondition relationshipType ∧
      resolution.residual = [] ∧ resolution.postponements = 0 ∧ resolution.forced = 0 ∧
      statement.compile = .ok query ∧
      query.sql = "SELECT orgs.id, civicrm_volunteer_project_contact.project_id FROM "
        ++ resolution.fromClause
        ++ (if areas.isEmpty then "" else
          " WHERE " ++ " OR ".intercalate (areas.mapIdx fun i _ =>
            schema.table ++ "." ++ schema.column ++ " = " ++ Placeholder.write (offset + i))) ∧
      query.parameters = areas.mapIdx (fun i area => ⟨offset + i, area, .string⟩) ∧
      query.next = offset + areas.length := by
  have filled : schema.field ≠ "" := by simp [field]
  have takes := wellNamed.takes (knownKeys [] [schema.organizations, contacts relationshipType])
    relationshipType
  have resolved : resolveJoins strict []
      [.descriptor schema.organizations, .descriptor (contacts relationshipType)] =
        .ok ⟨schema.chain relationshipType, _⟩ := resolveJoins_of_takes rfl takes strict
  have filtered := Where.compile_anyOf wellNamed.trim_field filled bindable fits
  have compiled : (schema.search relationshipType areas offset strict).compile =
      .ok (Statement.assembled _ _ _ _) :=
    Statement.compile_eq_ok_iff.mpr ⟨_, _, _, selectList_search, rfl, rfl, resolved,
      checkSelected_search, filtered, rfl⟩
  refine ⟨_, _, resolved, rfl, sql_chain relationshipType, rfl,
    countP_map_placed (fun _ => rfl) _, countP_map_placed (fun _ => rfl) _, compiled, ?_, ?_, ?_⟩
  · have ending : (schema.search relationshipType areas offset strict).ending = "" := rfl
    have selects :
        "SELECT " ++ "orgs.id, civicrm_volunteer_project_contact.project_id" ++ " FROM " =
          "SELECT orgs.id, civicrm_volunteer_project_contact.project_id FROM " := by decide
    rw [Statement.sql_assembled, ending, String.append_empty, selects]
    cases areas <;> rfl
  · rw [Statement.parameters_assembled]
    cases areas <;> rfl
  · rw [Statement.next_assembled]
    cases areas <;> rfl

namespace OrganizationAreas

def schema : ImpactAreaSchema := ⟨"civicrm_value_org_5", "impact_area_7"⟩

def areas : List Json := [.string "Education", .ofNat 7, .bool true]

/-- The last index that leaves a word for what follows the areas. -/
def offset : Nat := Text.wordSize - 4

theorem wellNamed : schema.WellNamed where
  filled := by decide
  word := List.all_eq_true.mp (by decide)
  notOrganizations := by decide
  notContacts := by decide
  column := by
    have last : schema.column.toList.getLast? = some '7' := by decide
    intro c member
    rw [last] at member
    obtain rfl := Option.some.inj member
    decide

end OrganizationAreas

open OrganizationAreas in
theorem projectsByImpactArea_compiles_organizationAreas :
    ∃ query, Statement.compile { projectsByImpactArea schema (-3) areas with
        offset := offset, strictJoins := true } = .ok query ∧
      query.sql = "SELECT orgs.id, civicrm_volunteer_project_contact.project_id "
        ++ "FROM civicrm_contact orgs "
        ++ "INNER JOIN civicrm_value_org_5 ON orgs.id = civicrm_value_org_5.entity_id "
        ++ "INNER JOIN civicrm_volunteer_project_contact "
        ++ "ON orgs.id = civicrm_volunteer_project_contact.contact_id "
        ++ "AND civicrm_volunteer_project_contact.relationship_type_id = -3 "
        ++ "WHERE civicrm_value_org_5.impact_area_7 = %18446744073709551612 "
        ++ "OR civicrm_value_org_5.impact_area_7 = %18446744073709551613 "
        ++ "OR civicrm_value_org_5.impact_area_7 = %18446744073709551614" ∧
      query.parameters.map Where.Parameter.value = areas ∧
      query.next = Text.wordSize - 1 := by
  have bindable : ∀ area ∈ areas, area.isBindable = true := by decide
  have fits : offset + areas.length < Text.wordSize := by decide
  obtain ⟨resolution, query, _, _, chain, _, _, _, compiled, sql, parameters, next⟩ :=
    projectsByImpactArea_compiles wellNamed bindable fits (-3) true
  refine ⟨query, compiled, ?_, ?_, ?_⟩
  · rw [sql, chain]
    decide +kernel
  · rw [parameters]
    decide +kernel
  · rw [next]
    decide

end SelectCompiler
