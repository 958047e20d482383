import Questlog.Checklist.Section
import Questlog.Json.Parser

namespace Questlog

/-- Why JSON is no checklist. -/
inductive ChecklistError where
  | notAnObject
  | invalidCompleted
  | invalidAxes
  | invalidSection (key : String)

/-- The message that tells what is amiss. -/
def ChecklistError.message : ChecklistError → String
  | notAnObject => "checklist document must be a JSON object"
  | invalidCompleted => "invalid $completed"
  | invalidAxes => "invalid $axes"
  | invalidSection key => s!"invalid section '{key}'"

namespace Record

/-- The fields of a record that is given as an array, if they are not too many. -/
def ofArray? (names : List String) (items : List Json) : Option (List (String × Json)) :=
  if items.length ≤ names.length then some (names.zip items) else none

/-- A text that may be missing or `null`. -/
def text? (fields : List (String × Json)) (name : String) : Option (Option String) :=
  match fields.lookup name with
  | none => some none
  | some .null => some none
  | some (.string s) => some (some s)
  | some _ => none

/-- A list of texts that may be missing. -/
def texts? (fields : List (String × Json)) (name : String) : Option (List String) :=
  match fields.lookup name with
  | none => some []
  | some json => json.strings?

/-- A value of any kind; `null` is none. -/
def value? (fields : List (String × Json)) (name : String) : Option Json :=
  match fields.lookup name with
  | some .null => none
  | other => other

end Record

namespace Item

/-- The fields of an item in their order. A record is an object, or an array of its fields in their
order, which may end early. Fields that are not known are passed over, and one that may be missing
may also be `null`. -/
def fieldNames : List String :=
  ["name", "code", "title", "key", "serial", "location", "sector", "locations", "shop", "bait",
    "notes", "tags", "variants", "$condition"]

/-- The place of the variants among the fields. -/
def variantsPlace : Nat := 12

/-- The details that the fields of an item give. -/
def readDetails (fields : List (String × Json)) : Option ItemDetails := do
  return {
    name := ← Record.text? fields "name"
    code := ← Record.text? fields "code"
    title := ← Record.text? fields "title"
    key := ← Record.text? fields "key"
    serial := Record.value? fields "serial"
    location := ← Record.text? fields "location"
    sector := ← Record.text? fields "sector"
    locations := ← Record.texts? fields "locations"
    shop := ← Record.text? fields "shop"
    bait := ← Record.text? fields "bait"
    notes := ← Record.text? fields "notes"
    tags := ← Record.texts? fields "tags"
    condition := Record.value? fields "$condition" }

mutual

/-- The item that a JSON value is: a text, or the record of an entry. -/
def ofJson? : Json → Option Item
  | .string text => some (label text)
  | .object members =>
    match readDetails members, variantsOfMembers members with
    | some details, some variants => some (entry details variants)
    | _, _ => none
  | .array items =>
    let details := (Record.ofArray? fieldNames items).bind readDetails
    match details, variantsOfPlaces variantsPlace items with
    | some details, some variants => some (entry details variants)
    | _, _ => none
  | _ => none

/-- The items of an array. -/
def ofItems? : List Json → Option (List Item)
  | [] => some []
  | json :: rest =>
    match ofJson? json, ofItems? rest with
    | some item, some items => some (item :: items)
    | _, _ => none

/-- The variants of an item, which may be `null`. -/
def variantsOf? : Json → Option (Option (List Item))
  | .null => some none
  | .array items =>
    match ofItems? items with
    | some items => some (some items)
    | none => none
  | _ => none

/-- The variants among the members of an object. -/
def variantsOfMembers : List (String × Json) → Option (Option (List Item))
  | [] => some none
  | (name, value) :: rest =>
    if name = "variants" then variantsOf? value else variantsOfMembers rest

/-- The variants at a place of an array. -/
def variantsOfPlaces : Nat → List Json → Option (Option (List Item))
  | _, [] => some none
  | 0, value :: _ => variantsOf? value
  | place + 1, _ :: rest => variantsOfPlaces place rest

end

end Item

namespace Section

/-- The fields of a section in their order. -/
def fieldNames : List String :=
  ["title", "name", "location", "list", "$condition"]

/-- The place of the list among the fields. -/
def listPlace : Nat := 3

/-- The title among the fields of a section. It may be missing, but not `null`. -/
def readTitle (fields : List (String × Json)) : Option String :=
  match fields.lookup "title" with
  | none => some ""
  | some json => json.string?

/-- The heading that the fields of a section give. -/
def readHeading (fields : List (String × Json)) : Option Heading := do
  return {
    title := ← readTitle fields
    name := ← Record.text? fields "name"
    location := ← Record.text? fields "location"
    condition := Record.value? fields "$condition" }

/-- A section with a heading, from what it holds. -/
abbrev Body := Heading → Section

mutual

/-- The section that a record is. -/
def ofJson? : Json → Option Section
  | .object members =>
    match readHeading members, bodyOfMembers members with
    | some heading, some body => some (body heading)
    | _, _ => none
  | .array places =>
    match (Record.ofArray? fieldNames places).bind readHeading, bodyOfPlaces listPlace places with
    | some heading, some body => some (body heading)
    | _, _ => none
  | _ => none

/-- The sections of an object, by their keys. -/
def ofMembers? : List (String × Json) → Option (List (String × Section))
  | [] => some []
  | (key, json) :: rest =>
    match ofJson? json, ofMembers? rest with
    | some sect, some sections => some ((key, sect) :: sections)
    | _, _ => none

/-- What a list holds: items in an array, groups in an object. -/
def bodyOf? : Json → Option Body
  | .null => some bare
  | .array list =>
    match Item.ofItems? list with
    | some list => some fun heading => .items heading list
    | none => none
  | .object members =>
    match ofMembers? members with
    | some list => some fun heading => .groups heading list
    | none => none
  | _ => none

/-- What the list among the members of an object holds. -/
def bodyOfMembers : List (String × Json) → Option Body
  | [] => some bare
  | (name, value) :: rest => if name = "list" then bodyOf? value else bodyOfMembers rest

/-- What the list at a place of an array holds. -/
def bodyOfPlaces : Nat → List Json → Option Body
  | _, [] => some bare
  | 0, value :: _ => bodyOf? value
  | place + 1, _ :: rest => bodyOfPlaces place rest

end

end Section

namespace Checklist

/-- The names of the stages of each field. -/
def readAxes : List (String × Json) → Option (List (String × List String))
  | [] => some []
  | (field, json) :: rest =>
    match json.strings?, readAxes rest with
    | some stages, some axes => some ((field, stages) :: axes)
    | _, _ => none

/-- Takes one entry of the document into account. Names that start with a dollar sign are no
sections; those that are not known are passed over. -/
def readEntry (checklist : Checklist) (key : String) (json : Json) :
    Except ChecklistError Checklist :=
  if key = "$completed" then
    match json.strings? with
    | some defaults => .ok { checklist with defaults }
    | none => .error .invalidCompleted
  else if key = "$axes" then
    match json.object?.bind readAxes with
    | some axes => .ok { checklist with axes }
    | none => .error .invalidAxes
  else if key.toList.head? = some '$' then
    .ok checklist
  else
    match Section.ofJson? json with
    | some sect => .ok { checklist with sections := Entries.put checklist.sections key sect }
    | none => .error (.invalidSection key)

/-- The checklist of the entries of a document. -/
def ofEntries (entries : List (String × Json)) : Except ChecklistError Checklist :=
  entries.foldlM (fun checklist entry => readEntry checklist entry.1 entry.2) {}

/-- The checklist that a JSON value is. -/
def ofJson (json : Json) : Except ChecklistError Checklist :=
  match json with
  | .object entries => ofEntries entries
  | _ => .error .notAnObject

end Checklist

end Questlog
