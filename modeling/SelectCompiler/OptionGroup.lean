/-!
Custom fields that draw their values from the same option group can be matched against each other.
Fields are put into classes by option group, and each class of at least two fields gives one pairing
of its two smallest names.
-/

namespace SelectCompiler

structure FieldMetadata where
  name : String
  optionGroup : Option String
  deriving DecidableEq, Repr

/-- The fields of one option group. -/
structure FieldClass where
  optionGroup : String
  fields : List String
  deriving DecidableEq, Repr

structure FieldPairing where
  optionGroup : String
  left : String
  right : String
  deriving DecidableEq, Repr

/-- The volunteer fields that count when needs are recommended. -/
def recommendedFields : List String :=
  ["Interests", "Primary_Impact_Area", "Background_Check_Opt_In", "Spoken_Languages",
    "Agreed_to_Waiver", "Group_Volunteer_Interest", "Availability", "Board_Service_Opt_In",
    "How_Often", "Volunteer_Emergency_Support_Team_Opt_In", "Other_Skills",
    "Local_Arlington_Civic_Association_Opt_In", "Spoken_Languages_Other_"]

/-- Each volunteer field that takes part in matching, with the field it is matched against. -/
def matchingFields : List (String × String) :=
  [("Interests", "Primary_Impact_Area"),
    ("Background_Check_Opt_In", "Background_Check_Opt_In"),
    ("Spoken_Languages", "Spoken_Languages"),
    ("Agreed_to_Waiver", "Agreed_to_Waiver"),
    ("Group_Volunteer_Interest", "Group_Volunteer_Interest"),
    ("Availability", "Availability"),
    ("Board_Service_Opt_In", "Board_Service_Opt_In"),
    ("How_Often", "How_Often"),
    ("Volunteer_Emergency_Support_Team_Opt_In", "Volunteer_Emergency_Support_Team_Opt_In"),
    ("Other_Skills", "Other_Skills"),
    ("Local_Arlington_Civic_Association_Opt_In", "Local_Arlington_Civic_Association_Opt_In"),
    ("Spoken_Languages_Other_", "Spoken_Languages_Other_")]

/-- The field that a volunteer field is matched against. -/
def matchedField? (name : String) : Option String :=
  matchingFields.lookup name

namespace FieldClass

/-- A name in the class of its group; a new group goes to the end, and so does a new name. -/
def insert (group name : String) : List FieldClass → List FieldClass
  | [] => [⟨group, [name]⟩]
  | first :: rest =>
    if first.optionGroup = group then
      ⟨group, if first.fields.contains name then first.fields else first.fields ++ [name]⟩ :: rest
    else first :: insert group name rest

/-- The classes of a list of fields, groups and names in order of first occurrence; fields without
a group belong to none. -/
def ofFields (fields : List FieldMetadata) : List FieldClass :=
  fields.foldl
    (fun classes field =>
      field.optionGroup.elim classes fun group => insert group field.name classes)
    []

/-- The two smallest names of a class of at least two. -/
def pairing? (fields : FieldClass) : Option FieldPairing :=
  match fields.fields.mergeSort (fun a b => decide (a ≤ b)) with
  | left :: right :: _ => some ⟨fields.optionGroup, left, right⟩
  | _ => none

end FieldClass

namespace FieldPairing

/-- The pairings of all classes, ordered by option group. -/
def ofFields (fields : List FieldMetadata) : List FieldPairing :=
  ((FieldClass.ofFields fields).filterMap FieldClass.pairing?).mergeSort
    fun a b => decide (a.optionGroup ≤ b.optionGroup)

/-- The pairings among the recommended fields. -/
def ofRecommended (fields : List FieldMetadata) : List FieldPairing :=
  ofFields (fields.filter fun field => recommendedFields.contains field.name)

end FieldPairing

end SelectCompiler
