import Questlog.Checklist.Section

namespace Questlog

namespace Record

/-- A field that is left out where it has no value. -/
def optional (name : String) (value : Option Json) : List (String × Json) :=
  match value with
  | some json => [(name, json)]
  | none => []

/-- A text that is left out where it is missing. -/
def optionalText (name : String) (text : Option String) : List (String × Json) :=
  optional name (text.map .string)

/-- A list of texts that is left out where it is empty. -/
def optionalTexts (name : String) (texts : List String) : List (String × Json) :=
  if texts.isEmpty then [] else [(name, .array (texts.map .string))]

end Record

namespace Item

/-- The fields ahead of the variants. -/
def writeDetails (d : ItemDetails) : List (String × Json) :=
  Record.optionalText "name" d.name ++ Record.optionalText "code" d.code ++
    Record.optionalText "title" d.title ++ Record.optionalText "key" d.key ++
    Record.optional "serial" d.serial ++ Record.optionalText "location" d.location ++
    Record.optionalText "sector" d.sector ++ Record.optionalTexts "locations" d.locations ++
    Record.optionalText "shop" d.shop ++ Record.optionalText "bait" d.bait ++
    Record.optionalText "notes" d.notes ++ Record.optionalTexts "tags" d.tags

mutual

/-- An item as JSON. -/
def toJson : Item → Json
  | label text => .string text
  | entry details variants =>
    .object (writeDetails details ++ writeVariants variants ++
      Record.optional "$condition" details.condition)

/-- The JSON values of items, in their order. -/
def toItems : List Item → List Json
  | [] => []
  | item :: rest => toJson item :: toItems rest

/-- The member for the variants, if there are any. -/
def writeVariants : Option (List Item) → List (String × Json)
  | none => []
  | some variants => [("variants", .array (toItems variants))]

end

end Item

namespace Section

/-- The members of a section with a given list. -/
def writeFields (heading : Heading) (list : List (String × Json)) : Json :=
  .object (("title", .string heading.title) :: Record.optionalText "name" heading.name ++
    Record.optionalText "location" heading.location ++ list ++
    Record.optional "$condition" heading.condition)

mutual

/-- A section as JSON. What is empty or missing is left out, except for the title. -/
def toJson : Section → Json
  | bare heading => writeFields heading []
  | items heading list => writeFields heading [("list", .array (Item.toItems list))]
  | groups heading list => writeFields heading [("list", .object (toMembers list))]

/-- The groups by their names. -/
def toMembers : List (String × Section) → List (String × Json)
  | [] => []
  | (key, sect) :: rest => (key, toJson sect) :: toMembers rest

end

end Section

end Questlog
