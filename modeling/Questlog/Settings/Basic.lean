import Questlog.Condition.Gate

namespace Questlog

/-- The settings of the program. -/
structure Settings where
  /-- the title of exported pages -/
  title : String := "Stellar Blade Checklist"
  /-- the scope of stored progress, and the name that exports carry -/
  progressKey : String := "stellar-blade-checklist"
  /-- the file of the checklist -/
  content : Option String := none
  /-- the file of the progress -/
  progress : Option String := none
  gate : GateSettings := {}
  host : String := "127.0.0.1"
  port : UInt16 := 3000

/-- Why settings are refused. -/
inductive SettingsError where
  | capacityNotANumber (raw : String)
  | notAPort (raw : String)
  | listenAddress (address : String)

/-- The message of an error, with the value that it names. -/
def SettingsError.message : SettingsError → String
  | capacityNotANumber raw => s!"CHECKLIST_CACHE_CAPACITY is not a number: {raw}"
  | notAPort raw => s!"CHECKLIST_PORT is not a port: {raw}"
  | listenAddress address => s!"invalid listen address {address}: invalid socket address syntax"

namespace Settings

/-- The number that a text denotes as digits, perhaps behind a plus sign, if it is below a bound. -/
def natBelow? (bound : Nat) (cs : List Char) : Option Nat :=
  let digits := match cs with
    | '+' :: rest => rest
    | rest => rest
  if digits ≠ [] ∧ digits.all Decimal.isDigit then
    if Decimal.ofDigits digits < bound then some (Decimal.ofDigits digits) else none
  else
    none

/-- The file in which progress is kept: the given one, or else one named for the scope. -/
def progressPath (settings : Settings) : String :=
  settings.progress.getD (settings.progressKey ++ ".progress.json")

end Settings

end Questlog
