import Questlog.Json.Basic

namespace Questlog

/-- The values of the fields, sorted by name. -/
structure Values where
  entries : List (String × Json) := []

namespace Values

/-- The values that the members of an object give; of a repeated name the last one counts. -/
def ofMembers (members : List (String × Json)) : Values :=
  ⟨Entries.sorted members⟩

/-- The values that a JSON object gives. -/
def ofJson? (json : Json) : Option Values :=
  json.object?.map ofMembers

/-- The value of a field. -/
def get? (values : Values) (field : String) : Option Json :=
  values.entries.lookup field

/-- Whether a field has a value. -/
def contains (values : Values) (field : String) : Bool :=
  (values.get? field).isSome

/-- Gives a field a value. -/
def insert (values : Values) (field : String) (value : Json) : Values :=
  ⟨Entries.putSorted values.entries field value⟩

/-- The names of the fields. -/
def fields (values : Values) : List String :=
  Entries.names values.entries

/-- The record as a JSON object. -/
def toJson (values : Values) : Json :=
  .object values.entries

end Values

end Questlog
