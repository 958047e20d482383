import Questlog.Command.Basic

namespace Questlog

/-- The signed integer of 64 bits that a text denotes. -/
def readInt64? (text : String) : Option Int64 :=
  match text.toList with
  | '-' :: digits =>
    if digits ≠ [] ∧ digits.all Decimal.isDigit ∧ Decimal.ofDigits digits ≤ 0x8000000000000000 then
      some (Int64.ofInt (-Decimal.ofDigits digits))
    else
      none
  | cs => (Settings.natBelow? 0x8000000000000000 cs).map Int64.ofNat

/-- The port that a text denotes. -/
def readPort? (text : String) : Option UInt16 :=
  match readInt64? text with
  | some n => if 0 ≤ n ∧ n < 65536 then some (UInt16.ofNat n.toNatClampNeg) else none
  | none => none

namespace Arguments

/-- The name of the program and its version, as the program shows them. -/
def version : String :=
  "checklist-gate 0.1.0"

/-- How the program is used. -/
def usage : String :=
  "\n".intercalate ["usage: checklist-gate [-c FILE] COMMAND", "",
    "eval --condition TEXT [--values JSON]", "status [--locked-only] [--sections]",
    "mark -k KEY [--undo]", "progression [--game-mode N] [--region N]",
    "export [-f json|markdown] [-o FILE]", "import -f FILE", "serve [-p PORT]", ""]

/-- Why the arguments give no command: they are faulty, or ask for help or for the version. -/
inductive Stop where
  | usage
  | help
  | version
deriving DecidableEq

/-- What the value of an option has to be. -/
inductive ValueKind where
  | text
  | path
  | integer
  | port
  | format

/-- Whether a text is a value of the kind. -/
def ValueKind.accepts (kind : ValueKind) (value : String) : Bool :=
  match kind with
  | text => true
  | path => !value.isEmpty
  | integer => (readInt64? value).isSome
  | port => (readPort? value).isSome
  | format => (ExportFormat.ofName? value).isSome

/-- An option, which takes a value unless it is a flag. -/
structure Rule where
  long : String
  short : Option Char := none
  value : Option ValueKind := none

/-- The options that have been given, by their long names, with their values. -/
abbrev Given := List (String × String)

/-- Takes an option that is complete. -/
def Given.take (given : Given) (rule : Rule) (value : String) : Except Stop Given :=
  if (given.lookup rule.long).isSome then .error .usage
  else if rule.value.all (·.accepts value) then .ok ((rule.long, value) :: given)
  else .error .usage

/-- Takes a flag. Help and the version are shown at once. -/
def Given.takeFlag (given : Given) (rule : Rule) : Except Stop Given :=
  if rule.long = "help" then .error .help
  else if rule.long = "version" then .error .version
  else given.take rule ""

/-- Whether an argument is written as an option. -/
def isOption (argument : String) : Bool :=
  argument.startsWith "-" && argument ≠ "-"

/-- Takes an option in its long form, with its value perhaps behind an equals sign. Where the value
is still to come, the option is returned. -/
def readLong (rules : List Rule) (given : Given) (text : List Char) :
    Except Stop (Given × Option Rule) :=
  let (name, attached) := text.span (· ≠ '=')
  match rules.find? fun rule => rule.long = String.ofList name, attached with
  | none, _ => .error .usage
  | some rule, '=' :: value =>
    match rule.value with
    | some _ => (given.take rule (String.ofList value)).map (·, none)
    | none => .error .usage
  | some rule, _ =>
    match rule.value with
    | some _ => .ok (given, some rule)
    | none => (given.takeFlag rule).map (·, none)

/-- Takes options in their short form, the last of which may have its value right behind it, perhaps
after an equals sign. -/
def readShort (rules : List Rule) (given : Given) :
    List Char → Except Stop (Given × Option Rule)
  | [] => .ok (given, none)
  | c :: rest =>
    match rules.find? fun rule => rule.short = some c with
    | none => .error .usage
    | some rule =>
      match rule.value, rest with
      | none, rest =>
        match given.takeFlag rule with
        | .ok given => readShort rules given rest
        | .error stop => .error stop
      | some _, [] => .ok (given, some rule)
      | some _, '=' :: value => (given.take rule (String.ofList value)).map (·, none)
      | some _, value => (given.take rule (String.ofList value)).map (·, none)

/-- Takes an argument that is written as an option. -/
def readOption (rules : List Rule) (given : Given) (argument : String) :
    Except Stop (Given × Option Rule) :=
  match argument.toList with
  | '-' :: '-' :: text => readLong rules given text
  | '-' :: cluster => readShort rules given cluster
  | _ => .error .usage

/-- Takes options up to the first other word, and returns the arguments from there. `pending` is an
option that waits for its value. Behind two dashes no word may follow. -/
def readOptions (rules : List Rule) (given : Given) (pending : Option Rule) :
    List String → Except Stop (Given × List String)
  | [] => if pending.isSome then .error .usage else .ok (given, [])
  | argument :: rest =>
    match pending with
    | some rule =>
      if isOption argument then
        .error .usage
      else
        match given.take rule argument with
        | .ok given => readOptions rules given none rest
        | .error stop => .error stop
    | none =>
      if argument = "--" then
        if rest.isEmpty then .ok (given, []) else .error .usage
      else if isOption argument then
        match readOption rules given argument with
        | .ok (given, pending) => readOptions rules given pending rest
        | .error stop => .error stop
      else
        .ok (given, argument :: rest)

/-- The option that names the settings file. -/
def configRule : Rule :=
  { long := "config", short := some 'c', value := some .path }

/-- The flag that asks for help. -/
def helpRule : Rule :=
  { long := "help", short := some 'h' }

/-- The flag that asks for the version. -/
def versionRule : Rule :=
  { long := "version", short := some 'V' }

/-- The commands by name, each with the options of its own. -/
def commands : List (String × List Rule) :=
  [("eval", [{ long := "condition", value := some .text },
      { long := "values", value := some .text }]),
    ("status", [{ long := "locked-only" }, { long := "sections" }]),
    ("mark", [{ long := "key", short := some 'k', value := some .text }, { long := "undo" }]),
    ("progression", [{ long := "game-mode", value := some .integer },
      { long := "region", value := some .integer }]),
    ("export", [{ long := "format", short := some 'f', value := some .format },
      { long := "output", short := some 'o', value := some .path }]),
    ("import", [{ long := "file", short := some 'f', value := some .path }]),
    ("serve", [{ long := "port", short := some 'p', value := some .port }])]

/-- The command of a name with the given options, unless one is missing. -/
def commandOf? (name : String) (given : Given) : Option Command :=
  let has (option : String) : Bool := (given.lookup option).isSome
  match name with
  | "eval" => (given.lookup "condition").map fun condition =>
      .decide condition (given.lookup "values")
  | "status" => some (.status (has "locked-only") (has "sections"))
  | "mark" => (given.lookup "key").map fun key => .mark key (has "undo")
  | "progression" => some (.progression ((given.lookup "game-mode").bind readInt64?)
      ((given.lookup "region").bind readInt64?))
  | "export" => some (.exportTo (((given.lookup "format").bind ExportFormat.ofName?).getD .json)
      (given.lookup "output"))
  | "import" => (given.lookup "file").map .importFrom
  | "serve" => some (.serve ((given.lookup "port").bind readPort?))
  | _ => none

/-- Reads the options behind the name of a command. -/
def readCommand (config : Option String) (name : String) (rules : List Rule)
    (arguments : List String) : Except Stop Invocation :=
  match readOptions (rules ++ [configRule, helpRule]) [] none arguments with
  | .error stop => .error stop
  | .ok (given, []) =>
    match commandOf? name given with
    | some command => .ok { config := given.lookup "config" <|> config, command }
    | none => .error .usage
  | .ok _ => .error .usage

/-- Help for a command that is named, or for all of them. -/
def readHelp : List String → Stop
  | [] => .help
  | [name] => if name = "help" ∨ (commands.lookup name).isSome then .help else .usage
  | _ => .usage

/-- The invocation that arguments ask for. Options stand in front of the name of the command and
behind it. One may be given only once on either side of the name, and the settings file that is
named behind it wins. -/
def parse (arguments : List String) : Except Stop Invocation :=
  match readOptions [configRule, helpRule, versionRule] [] none arguments with
  | .error stop => .error stop
  | .ok (_, []) => .error .usage
  | .ok (given, name :: rest) =>
    match commands.lookup name with
    | some rules => readCommand (given.lookup "config") name rules rest
    | none => if name = "help" then .error (readHelp rest) else .error .usage

end Arguments

end Questlog
