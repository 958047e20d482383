import Questlog.Settings.Basic

namespace Questlog

/-- The form in which progress is exported. -/
inductive ExportFormat where
  | json
  | markdown
deriving DecidableEq

namespace ExportFormat

/-- The form of a name. -/
def ofName? (name : String) : Option ExportFormat :=
  if name = "json" then some json else if name = "markdown" then some markdown else none

end ExportFormat

/-- What the program is asked to do. -/
inductive Command where
  /-- decide a condition, by the given values or else by the stored progress -/
  | decide (condition : String) (values : Option String)
  /-- list the entries, or the sections, perhaps only those that are locked -/
  | status (lockedOnly sections : Bool)
  /-- mark an entry or take its mark off -/
  | mark (key : String) (undo : Bool)
  /-- change the numbers of the progression that are given, and show them -/
  | progression (gameMode region : Option Int64)
  /-- write the progress to a file or to the output -/
  | exportTo (format : ExportFormat) (output : Option String)
  /-- take over a snapshot -/
  | importFrom (file : String)
  /-- answer requests -/
  | serve (port : Option UInt16)
deriving DecidableEq

/-- A command with the settings file to be read. -/
structure Invocation where
  config : Option String := none
  command : Command
deriving DecidableEq

end Questlog
