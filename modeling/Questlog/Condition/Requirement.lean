import Questlog.Json.Basic

namespace Questlog

/-- What stands inside a structured condition, as a term of a list or at a field of an object. A
scalar at a field asks for an equal value; as a term it never holds. -/
inductive Requirement where
  | clause (text : String)
  | anyOf (terms : List Requirement)
  | allOf (entries : List (String × Requirement))
  | scalar (value : Json)

/-- A condition. -/
inductive Condition where
  | text (expression : String)
  | anyOf (terms : List Requirement)
  | allOf (entries : List (String × Requirement))

mutual

/-- The requirement that a JSON value is. The entries of an object come in ascending order of
their fields. -/
def Requirement.ofJson : Json → Requirement
  | .string s => .clause s
  | .array items => .anyOf (Requirement.ofItems items)
  | .object members => .allOf (Entries.sorted (Requirement.ofMembers members))
  | .null => .scalar .null
  | .bool b => .scalar (.bool b)
  | .number n => .scalar (.number n)

/-- The requirements that the items of an array give. -/
def Requirement.ofItems : List Json → List Requirement
  | [] => []
  | item :: rest => Requirement.ofJson item :: Requirement.ofItems rest

/-- The requirements that the members of an object give. -/
def Requirement.ofMembers : List (String × Json) → List (String × Requirement)
  | [] => []
  | (name, value) :: rest => (name, Requirement.ofJson value) :: Requirement.ofMembers rest

end

mutual

/-- A requirement as JSON. -/
def Requirement.toJson : Requirement → Json
  | .clause s => .string s
  | .anyOf terms => .array (Requirement.toItems terms)
  | .allOf entries => .object (Requirement.toMembers entries)
  | .scalar value => value

/-- The JSON values of requirements, in their order. -/
def Requirement.toItems : List Requirement → List Json
  | [] => []
  | term :: rest => Requirement.toJson term :: Requirement.toItems rest

/-- The members that requirements by name give. -/
def Requirement.toMembers : List (String × Requirement) → List (String × Json)
  | [] => []
  | (field, r) :: rest => (field, Requirement.toJson r) :: Requirement.toMembers rest

end

namespace Condition

/-- The condition that a JSON value is: only texts, arrays and objects are conditions. -/
def ofJson? : Json → Option Condition
  | .string s => some (text s)
  | .array items => some (anyOf (Requirement.ofItems items))
  | .object members => some (allOf (Entries.sorted (Requirement.ofMembers members)))
  | _ => none

/-- A condition as JSON. -/
def toJson : Condition → Json
  | text s => .string s
  | anyOf terms => .array (Requirement.toItems terms)
  | allOf entries => .object (Requirement.toMembers entries)

end Condition

end Questlog
