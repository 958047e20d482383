import Questlog.Settings.Basic
import Questlog.Yaml.Basic

namespace Questlog

namespace Settings

/-- The value of an entry, if it is there; nothing is read from a mapping that has it twice. -/
def entry? (entries : List (Yaml × Yaml)) (name : String) : Option (Option Yaml) :=
  let isNamed : Yaml × Yaml → Bool
    | (.scalar _ key, _) => key = name
    | _ => false
  match entries.filter isNamed with
  | [] => some none
  | [(_, value)] => some (some value)
  | _ => none

/-- The entries of a mapping, all keys of which have to be scalars. Nothing counts as a mapping
without entries. -/
def entriesOf? : Yaml → Option (List (Yaml × Yaml))
  | .mapping entries =>
    if entries.all fun | (.scalar .., _) => true | _ => false then some entries else none
  | .scalar true "" => some []
  | _ => none

/-- The text of a scalar of any kind. -/
def text? : Yaml → Option String
  | .scalar _ text => some text
  | _ => none

/-- Whether a plain scalar stands for no value. -/
def isNull (text : String) : Bool :=
  text = "" || text = "~" || text = "null" || text = "Null" || text = "NULL"

/-- The truth value of a plain scalar. -/
def bool? : Yaml → Option Bool
  | .scalar true text =>
    if text = "true" ∨ text = "True" ∨ text = "TRUE" then some true
    else if text = "false" ∨ text = "False" ∨ text = "FALSE" then some false
    else none
  | _ => none

/-- The number that digits of a base denote. -/
def numberOfBase? (base : Nat) (digits : List Char) : Option Nat :=
  if digits.isEmpty then none else Text.ofBase? base digits

/-- The number that a plain scalar writes: decimal without superfluous zeros, or hexadecimal, octal
or binary behind `0x`, `0o` or `0b`. -/
def plainNumber? (text : String) : Option Nat :=
  let unsigned := match text.toList with
    | '+' :: rest => rest
    | rest => rest
  match unsigned with
  | '0' :: 'x' :: digits => numberOfBase? 16 digits
  | '0' :: 'o' :: digits => numberOfBase? 8 digits
  | '0' :: 'b' :: digits => numberOfBase? 2 digits
  | '0' :: _ :: _ => none
  | digits => numberOfBase? 10 digits

/-- The number below a bound that a plain scalar writes. -/
def number? (bound : Nat) : Yaml → Option Nat
  | .scalar true text => (plainNumber? text).filter (· < bound)
  | _ => none

/-- What an entry says, or what holds without it. -/
def entryOr {α : Type} (entries : List (Yaml × Yaml)) (name : String) (read : Yaml → Option α)
    (otherwise : α) : Option α :=
  match entry? entries name with
  | none => none
  | some none => some otherwise
  | some (some value) => read value

/-- A value that may be null. -/
def nullable {α : Type} (read : Yaml → Option α) : Yaml → Option (Option α)
  | .scalar true text =>
    if isNull text then some none else (read (.scalar true text)).map some
  | value => (read value).map some

/-- The settings of the gate. -/
def gate? (yaml : Yaml) : Option GateSettings := do
  let entries ← entriesOf? yaml
  return {
    cacheCapacity :=
      ← entryOr entries "cache_capacity" (nullable (number? 0x10000000000000000)) none
    anyWildcard := ← entryOr entries "any_wildcard" bool? true }

/-- The host and the port of the server. -/
def server? (yaml : Yaml) : Option (String × UInt16) := do
  let standard : Settings := {}
  let entries ← entriesOf? yaml
  let host ← entryOr entries "host" text? standard.host
  let port ← entryOr entries "port" (fun v => (number? 0x10000 v).map UInt16.ofNat) standard.port
  return (host, port)

/-- The settings that a document gives. -/
def ofYaml? (yaml : Yaml) : Option Settings := do
  let standard : Settings := {}
  let entries ← entriesOf? yaml
  let (host, port) ← entryOr entries "server" server? (standard.host, standard.port)
  return {
    title := ← entryOr entries "title" text? standard.title
    progressKey := ← entryOr entries "progress_key" text? standard.progressKey
    content := ← entryOr entries "content" (nullable text?) none
    progress := ← entryOr entries "progress" (nullable text?) none
    gate := ← entryOr entries "gate" gate? {}
    host
    port }

/-- The settings that the text of a file gives. A blank file gives none. -/
def ofFile? (text : String) : Option Settings :=
  if Text.trimChars text.toList = [] then some {} else (Yaml.parse? text).bind ofYaml?

end Settings

end Questlog
