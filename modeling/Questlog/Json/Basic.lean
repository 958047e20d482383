import Questlog.Binary64.Rounding
import Questlog.Entries

namespace Questlog

/-- The integers that a 64-bit word holds, signed or unsigned. -/
abbrev Json.InWord (n : Int) : Prop :=
  -0x8000000000000000 ≤ n ∧ n < 0x10000000000000000

/-- A JSON number: an integer of 64 bits, or a finite double. -/
inductive Json.Number where
  | integer (value : Int) (inWord : Json.InWord value)
  | double (value : Binary64) (finite : value.isFinite = true)
deriving DecidableEq

/-- A JSON value. Objects keep the order of their members. -/
inductive Json where
  | null
  | bool (value : Bool)
  | number (value : Json.Number)
  | string (value : String)
  | array (items : List Json)
  | object (members : List (String × Json))

namespace Json

instance : Inhabited Json := ⟨null⟩

/-- The double nearest to a number. -/
def Number.toBinary64 : Number → Binary64
  | integer n _ => .ofInt n
  | double x _ => x

/-- A number as a signed 64-bit integer, if it is one. -/
def Number.int64? : Number → Option Int
  | integer n _ => if n < 0x8000000000000000 then some n else none
  | double .. => none

/-- The JSON integer `n`, or zero where no word holds it. -/
def ofInt (n : Int) : Json :=
  if h : InWord n then number (.integer n h) else number (.integer 0 (by decide))

/-- The JSON integer `n`. -/
def ofNat (n : Nat) : Json :=
  ofInt n

/-- An object; of a repeated name the first place and the last value count. -/
def ofMembers (members : List (String × Json)) : Json :=
  object (Entries.ofList members)

/-- The text that a value is. -/
def string? : Json → Option String
  | string s => some s
  | _ => none

/-- The items of an array. -/
def array? : Json → Option (List Json)
  | array items => some items
  | _ => none

/-- The members of an object. -/
def object? : Json → Option (List (String × Json))
  | object members => some members
  | _ => none

/-- The member of an object. -/
def member? (json : Json) (name : String) : Option Json :=
  match json with
  | object members => members.lookup name
  | _ => none

/-- A list of texts, if every item of an array is one. -/
def strings? (json : Json) : Option (List String) :=
  match json with
  | array items => items.mapM string?
  | _ => none

end Json

end Questlog
