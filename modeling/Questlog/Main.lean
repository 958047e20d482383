import Questlog.Command.Program

namespace Questlog.Main

/-- Adds the file or the directory at a path, if there is one. -/
def loadAt (disk : Disk) (path : String) : IO Disk := do
  try
    let text ← IO.FS.readFile path
    return (Disk.writeDeep path text disk).2
  catch
    | .inappropriateType .. => return (Disk.makeFolder path disk).2
    | _ => return disk

/-- Adds the directories on the way along a path, and what it leads to. -/
def load (disk : Disk) (path : String) : IO Disk :=
  let segments := path.splitOn "/"
  let paths := (List.range segments.length).map fun n => "/".intercalate (segments.take (n + 1))
  paths.foldlM loadAt disk

/-- The names behind the dollar signs of a text, with braces around them or without. -/
def referredNames (text : String) : List String :=
  (text.splitOn "$").flatMap fun behind =>
    let cs := behind.toList
    [cs.takeWhile Text.isAlphanumeric, (cs.drop 1).takeWhile (· ≠ '\x7d')].map String.ofList

/-- The values of some variables. -/
def environment (names : List String) : IO Environment := do
  let mut known : List (String × String) := []
  for name in names.filter (· ≠ "") do
    if let some value ← IO.getEnv name then
      known := (name, value) :: known
  return fun name => known.lookup name

/-- The variables that hold settings. -/
def settingNames : List String :=
  ["CHECKLIST_CONTENT", "CHECKLIST_PROGRESS", "CHECKLIST_CACHE_CAPACITY", "CHECKLIST_PORT"]

/-- The files that a command may read or write. -/
def filesOf (settings : Settings) (command : Command) : List String :=
  settings.progressPath :: settings.content.toList ++
    match command with
    | .importFrom file => [file]
    | .exportTo _ output => output.toList
    | _ => []

/-- Makes the directories and writes the files that a command has added or changed. -/
def store (before after : Disk) : IO Unit := do
  let made := after.folders.take (after.folders.length - before.folders.length)
  for path in made.reverse do
    IO.FS.createDir path
  for (path, text) in after.files do
    if before.files.lookup path ≠ some text then
      IO.FS.writeFile path text

/-- Adds the files that an invocation needs. -/
def loadFor (invocation : Invocation) (env : Environment) (disk : Disk) : IO Disk := do
  let disk ← invocation.config.toList.foldlM load disk
  match (invocation.settings env).run disk with
  | (.ok settings, disk) => (filesOf settings invocation.command).foldlM load disk
  | (.error _, disk) => return disk

end Questlog.Main

open Questlog in
/-- The command line. It brings the files and the variables that a command may need into one place,
lets the command work on them, and writes back what has changed. -/
def main (arguments : List String) : IO UInt32 := do
  let base ← Main.load {} ".env"
  let names := Main.referredNames ((base.read? ".env").getD "")
  let env ← Main.environment (Main.settingNames ++ names)
  let disk ← match Program.environment? env base, Arguments.parse arguments with
    | some env, .ok invocation => Main.loadFor invocation env base
    | _, _ => pure base
  let (outcome, after) := Program.run arguments env disk
  Main.store disk after
  IO.print outcome.output
  IO.eprint outcome.complaint
  return outcome.code
