import Questlog.Checklist.Key
import Questlog.Json.Printer

namespace Questlog

/-- What is said about an item, apart from its variants. -/
structure ItemDetails where
  name : Option String := none
  code : Option String := none
  title : Option String := none
  /-- the segment of its key, in place of its escaped title -/
  key : Option String := none
  serial : Option Json := none
  location : Option String := none
  sector : Option String := none
  locations : List String := []
  shop : Option String := none
  bait : Option String := none
  notes : Option String := none
  tags : List String := []
  condition : Option Json := none

/-- An entry to be checked off: a bare label, or details with an optional list of variants. -/
inductive Item where
  | label (text : String)
  | entry (details : ItemDetails) (variants : Option (List Item))

namespace Item

/-- A text that is there and not empty. -/
def nonEmpty? (text : Option String) : Option String :=
  text.filter fun s => !s.isEmpty

/-- The name of an item, or else its code, or else its title. -/
def title : Item → String
  | label text => text
  | entry details _ =>
    ((nonEmpty? details.name <|> nonEmpty? details.code) <|> nonEmpty? details.title).getD ""

/-- The text of a serial number. -/
def serialText : Json → String
  | .string s => s
  | json => json.compact

/-- The title with the serial number behind it, if there is one. -/
def displayTitle (item : Item) : String :=
  match item with
  | label text => text
  | entry details _ =>
    match details.serial with
    | some serial => s!"{item.title} (No. {serialText serial})"
    | none => item.title

/-- The segment of an item's key: the given one, or else its escaped title. -/
def segment (item : Item) : String :=
  match item with
  | label text => Key.escape text
  | entry details _ =>
    match details.key with
    | some key => key
    | none => Key.escape item.title

/-- The key of an item under the key of what it stands in. -/
def keyUnder (item : Item) (outer : String) : String :=
  Key.join [outer, item.segment]

/-- The variants of an item, if it has any. -/
def variants? : Item → Option (List Item)
  | label _ => none
  | entry _ variants => variants

/-- The condition that an item has of its own. -/
def condition? : Item → Option Json
  | label _ => none
  | entry details _ => details.condition

/-- Whether an item has a code, which is shown as it is. -/
def isCode : Item → Bool
  | label _ => false
  | entry details _ => (nonEmpty? details.code).isSome

/-- The number of entries to be checked off; each variant counts on its own. -/
def total : List Item → Nat
  | [] => 0
  | item :: rest => (item.variants?.map List.length).getD 1 + total rest

end Item

/-- What is said about a section, apart from what it holds. -/
structure Heading where
  title : String := ""
  name : Option String := none
  location : Option String := none
  condition : Option Json := none

/-- A section: without a list, with items, or with named groups, which are sections too. -/
inductive Section where
  | bare (heading : Heading)
  | items (heading : Heading) (items : List Item)
  | groups (heading : Heading) (groups : List (String × Section))

namespace Section

/-- What stands above the content of a section. -/
def heading : Section → Heading
  | bare heading => heading
  | items heading _ => heading
  | groups heading _ => heading

/-- The groups of a section, which are none where it holds items. -/
def groups? : Section → Option (List (String × Section))
  | groups _ list => some list
  | _ => none

end Section

/-- A checklist: its sections, the keys that count as completed for everyone, and the names of the
stages of each field. -/
structure Checklist where
  sections : List (String × Section) := []
  defaults : List String := []
  axes : List (String × List String) := []

end Questlog
