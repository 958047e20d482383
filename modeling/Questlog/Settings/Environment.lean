import Questlog.Settings.Basic

namespace Questlog

/-- The value of a variable, if it is set. -/
abbrev Environment := String → Option String

namespace Settings

/-- The cache capacity that a variable gives; zero means that there is none. -/
def readCapacity (raw : String) : Except SettingsError (Option Nat) :=
  match natBelow? 0x10000000000000000 (Text.trimChars raw.toList) with
  | some n => .ok (if n = 0 then none else some n)
  | none => .error (.capacityNotANumber raw)

/-- The port that a variable gives. -/
def readPort (raw : String) : Except SettingsError UInt16 :=
  match natBelow? 0x10000 (Text.trimChars raw.toList) with
  | some n => .ok (UInt16.ofNat n)
  | none => .error (.notAPort raw)

/-- Takes the variables for the two files into account. -/
def applyPaths (settings : Settings) (env : Environment) : Settings :=
  { settings with
    content := env "CHECKLIST_CONTENT" <|> settings.content
    progress := env "CHECKLIST_PROGRESS" <|> settings.progress }

/-- Takes the variable for the cache capacity into account. -/
def applyCapacity (settings : Settings) (env : Environment) : Except SettingsError Settings :=
  match env "CHECKLIST_CACHE_CAPACITY" with
  | none => .ok settings
  | some raw => (readCapacity raw).map fun cacheCapacity =>
      { settings with gate := { settings.gate with cacheCapacity } }

/-- Takes the variable for the port into account. -/
def applyPort (settings : Settings) (env : Environment) : Except SettingsError Settings :=
  match env "CHECKLIST_PORT" with
  | none => .ok settings
  | some raw => (readPort raw).map fun port => { settings with port }

/-- Takes the variables into account, one after the other up to the first that is refused; gives the
settings so far, and why one was refused. -/
def applyEnvironment (settings : Settings) (env : Environment) : Settings × Option SettingsError :=
  let settings := settings.applyPaths env
  match settings.applyCapacity env with
  | .error e => (settings, some e)
  | .ok settings =>
    match settings.applyPort env with
    | .error e => (settings, some e)
    | .ok settings => (settings, none)

end Settings

end Questlog
