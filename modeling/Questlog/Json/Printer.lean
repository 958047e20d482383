import Questlog.Decimal.Layout
import Questlog.Json.Basic

namespace Questlog.Json

/-- Doubles have a fraction, and from `1e-5` up to `1e16` no exponent. -/
def numberLayout : Decimal.Layout :=
  { tie := .even, positional := fun leading => -5 ≤ leading && leading < 16, wholeFraction := true }

/-- A number as text. -/
def Number.write : Number → List Char
  | .integer n _ => if n < 0 then '-' :: Decimal.toDigits n.natAbs else Decimal.toDigits n.natAbs
  | .double x _ =>
    if x.isNegative then '-' :: numberLayout.write x.magnitude else numberLayout.write x.magnitude

/-- A digit below sixteen, as it is written in an escape. -/
def hexDigit (n : Nat) : Char :=
  Nat.digitChar n

/-- A character inside a string. Quotes, backslashes and control characters are escaped. -/
def writeChar (c : Char) : List Char :=
  if c = '"' then ['\\', '"']
  else if c = '\\' then ['\\', '\\']
  else if c = '\x08' then ['\\', 'b']
  else if c = '\t' then ['\\', 't']
  else if c = '\n' then ['\\', 'n']
  else if c = '\x0C' then ['\\', 'f']
  else if c = '\r' then ['\\', 'r']
  else if c < ' ' then
    ['\\', 'u', '0', '0', hexDigit (c.toNat / 16), hexDigit (c.toNat % 16)]
  else [c]

/-- A string in quotes. -/
def writeString (s : String) : List Char :=
  '"' :: s.toList.flatMap writeChar ++ ['"']

/-- Texts joined with a separator between them. -/
def joinWith (separator : List Char) : List (List Char) → List Char
  | [] => []
  | [part] => part
  | part :: rest => part ++ separator ++ joinWith separator rest

mutual

/-- The compact text of a value. -/
def writeCompact : Json → List Char
  | null => "null".toList
  | bool b => if b then "true".toList else "false".toList
  | number n => n.write
  | string s => writeString s
  | array items => '[' :: joinWith [','] (writeItems items) ++ [']']
  | object members => '\x7b' :: joinWith [','] (writeMembers members) ++ ['\x7d']

/-- The items of an array, each without any space. -/
def writeItems : List Json → List (List Char)
  | [] => []
  | item :: rest => writeCompact item :: writeItems rest

/-- The members of an object, each without any space. -/
def writeMembers : List (String × Json) → List (List Char)
  | [] => []
  | (name, value) :: rest => (writeString name ++ ':' :: writeCompact value) :: writeMembers rest

end

/-- The start of a line at a level. -/
def newLine (level : Nat) : List Char :=
  '\n' :: List.replicate (2 * level) ' '

/-- Parts between brackets, each on a line of its own. -/
def block (level : Nat) (opening closing : Char) (parts : List (List Char)) : List Char :=
  match parts with
  | [] => [opening, closing]
  | parts =>
    opening :: newLine (level + 1) ++ joinWith (',' :: newLine (level + 1)) parts ++
      newLine level ++ [closing]

mutual

/-- The pretty text of a value whose first line stands at `level`. -/
def writePretty (level : Nat) : Json → List Char
  | null => "null".toList
  | bool b => if b then "true".toList else "false".toList
  | number n => n.write
  | string s => writeString s
  | array items => block level '[' ']' (prettyItems (level + 1) items)
  | object members => block level '\x7b' '\x7d' (prettyMembers (level + 1) members)

/-- The items of an array, each with what it holds on lines of its own. -/
def prettyItems (level : Nat) : List Json → List (List Char)
  | [] => []
  | item :: rest => writePretty level item :: prettyItems level rest

/-- The members of an object, each with what it holds on lines of its own. -/
def prettyMembers (level : Nat) : List (String × Json) → List (List Char)
  | [] => []
  | (name, value) :: rest =>
    (writeString name ++ ':' :: ' ' :: writePretty level value) :: prettyMembers level rest

end

/-- The text of a value without any space. -/
def compact (json : Json) : String :=
  String.ofList (writeCompact json)

/-- The text of a value with one item or member a line. -/
def pretty (json : Json) : String :=
  String.ofList (writePretty 0 json)

end Questlog.Json
