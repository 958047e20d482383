import Questlog.Condition.Clause
import Questlog.Condition.Requirement
import Questlog.Values

namespace Questlog

namespace Requirement

/-- Whether a clause is the wildcard `any`, where that is enabled. -/
def isWildcard (wildcard : Bool) (text : String) : Bool :=
  wildcard && Text.trim text = "any"

/-- The value of a field as an operand; `null` without one. -/
def valueOf (values : Values) (field : String) : Operand :=
  match values.get? field with
  | some json => .ofJson json
  | none => .null

/-- Whether a clause holds for the value of a field. A clause that cannot be used holds as an entry
of an object, where it must not lock, and fails as a term of a list, where it must not unlock. -/
def clauseHolds (wildcard : Bool) (values : Values) (text field : String) (default : Bool) : Bool :=
  isWildcard wildcard text || Clause.holds text (valueOf values field) default

mutual

/-- Whether the entry of an object at `field` holds. -/
def entryHolds (wildcard : Bool) (values : Values) (field : String) : Requirement → Bool
  | clause text =>
    ((Clause.ofText? text).isNone && !isWildcard wildcard text) ||
      clauseHolds wildcard values text field true
  | anyOf terms => anyHolds wildcard values (some field) terms
  | allOf entries => allHold wildcard values entries
  | scalar json => (ClauseOp.compare .equal).holds (valueOf values field) (.ofJson json) true

/-- Whether a term of a list holds; `field` is the field to which the list is attached. -/
def termHolds (wildcard : Bool) (values : Values) (field : Option String) : Requirement → Bool
  | clause text =>
    match field with
    | some field => clauseHolds wildcard values text field false
    | none => false
  | anyOf terms => anyHolds wildcard values none terms
  | allOf entries => allHold wildcard values entries
  | scalar _ => false

/-- Whether some term of a list holds. -/
def anyHolds (wildcard : Bool) (values : Values) (field : Option String) : List Requirement → Bool
  | [] => false
  | term :: rest => termHolds wildcard values field term || anyHolds wildcard values field rest

/-- Whether every entry of an object holds whose field has a value. -/
def allHold (wildcard : Bool) (values : Values) : List (String × Requirement) → Bool
  | [] => true
  | (field, r) :: rest =>
    (!values.contains field || entryHolds wildcard values field r) && allHold wildcard values rest

end

end Requirement

end Questlog
