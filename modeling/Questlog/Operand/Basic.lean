import Questlog.Json.Basic

namespace Questlog

/-- A value of the expression language. -/
inductive Operand where
  | null
  | bool (value : Bool)
  | number (value : Binary64)
  | text (value : String)
  | list (items : List Operand)

namespace Operand

instance : Inhabited Operand := ⟨null⟩

mutual

/-- The operand of a JSON value. An object takes part only as a fixed text. -/
def ofJson : Json → Operand
  | .null => null
  | .bool b => bool b
  | .number n => number n.toBinary64
  | .string s => text s
  | .array items => list (ofJsonItems items)
  | .object _ => text "[object Object]"

/-- The operands that the items of an array give. -/
def ofJsonItems : List Json → List Operand
  | [] => []
  | item :: rest => ofJson item :: ofJsonItems rest

end

/-- Zero, NaN, the empty text, `false` and `null` are false; all else is true. -/
def truthy : Operand → Bool
  | null => false
  | bool b => b
  | number x => !x.isZero && !x.isNaN
  | text s => !s.isEmpty
  | list _ => true

end Operand

end Questlog
