import SelectCompiler.Statement.Query

/-!
The search for projects that benefit organizations in given impact areas.
-/

namespace SelectCompiler

/-- Where the impact area of an organization is stored. -/
structure ImpactAreaSchema where
  table : String
  column : String
  deriving DecidableEq, Repr

/-- The table that links organizations to projects. -/
def projectContacts : String := "civicrm_volunteer_project_contact"

/-- The projects of organizations whose impact area is any of `areas`; without areas there is no
filter. -/
def projectsByImpactArea (schema : ImpactAreaSchema) (relationshipType : Int)
    (areas : List Json) : Statement :=
  let organizations : Join :=
    (Join.unary .inner schema.table ("orgs.id = " ++ schema.table ++ ".entity_id")).fromTable
      "civicrm_contact orgs"
  let contacts : Join :=
    .unary .inner projectContacts
      ("orgs.id = " ++ projectContacts ++ ".contact_id AND " ++ projectContacts
        ++ ".relationship_type_id = " ++ Text.decimal relationshipType)
  let test (area : Json) : Predicate :=
    .leaf { Condition.eq (schema.table ++ "." ++ schema.column) area with connective := .or }
  { selection := some (.columns
      [("orgs", [.name "id"]), (projectContacts, [.name "project_id"])])
    joins := [.descriptor organizations, .descriptor contacts]
    filter := areas.map test }

end SelectCompiler
