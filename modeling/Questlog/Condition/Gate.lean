import Questlog.Condition.Compiler
import Questlog.Condition.Structured

namespace Questlog

/-- How a gate decides: how many compiled conditions it keeps, and whether the clause `any` matches
every value. -/
structure GateSettings where
  cacheCapacity : Option Nat := none
  anyWildcard : Bool := true

/-- A gate with what it has compiled. It decides whether what a condition guards is open. -/
structure Gate where
  compiler : Compiler
  anyWildcard : Bool

namespace Gate

/-- A gate that has compiled nothing yet. -/
def new (settings : GateSettings) : Gate :=
  { compiler := .new settings.cacheCapacity, anyWildcard := settings.anyWildcard }

/-- Whether a condition holds. -/
def holds (condition : Condition) (values : Values) : StateM Gate Bool := fun gate =>
  match condition with
  | .text expression =>
    let (answer, compiler) := Compiler.evaluate expression values gate.compiler
    (answer, { gate with compiler })
  | .anyOf terms => (Requirement.anyHolds gate.anyWildcard values none terms, gate)
  | .allOf entries => (Requirement.allHold gate.anyWildcard values entries, gate)

/-- Whether what a condition guards is open. Without a condition it is, and with JSON that is no
condition it is not. -/
def isUnlocked (condition : Option Json) (values : Values) : StateM Gate Bool :=
  match condition with
  | none => return true
  | some json =>
    match Condition.ofJson? json with
    | some condition => holds condition values
    | none => return false

/-- Whether what a condition guards is locked. Without a condition it is not. -/
def isDisabled (condition : Option Condition) (values : Values) : StateM Gate Bool :=
  match condition with
  | none => return false
  | some condition => return !(← holds condition values)

/-- The number of compiled conditions that are kept. -/
def cacheSize (gate : Gate) : Nat :=
  gate.compiler.size

end Gate

end Questlog
