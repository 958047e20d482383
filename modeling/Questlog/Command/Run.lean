import Questlog.Checklist.Markdown
import Questlog.Checklist.Reading
import Questlog.Checklist.Status
import Questlog.Command.Basic
import Questlog.Progress.Export
import Questlog.Progress.File
import Questlog.Settings.Address
import Questlog.Settings.Environment
import Questlog.Settings.File

namespace Questlog

/-- Why a command fails. A command that fails prints nothing. -/
inductive Failure where
  | settingsUnreadable (path : String)
  | settingsNotYaml (path : String)
  | settings (error : SettingsError)
  | noContent
  | contentNotLoaded (path : String)
  | progressNotOpened (path : String)
  | progressNotSaved (path : String)
  | valuesNotJson
  | valuesNotAnObject
  | notRead (path : String)
  | notWritten (path : String)
  | notImported (error : ImportError)
  | notListening (address : String)

/-- The message of a failure, without the details that the system adds. -/
def Failure.message : Failure → String
  | settingsUnreadable path => s!"failed to read settings from {path}"
  | settingsNotYaml path => s!"invalid settings in {path}"
  | settings error => "Configuration error: " ++ error.message
  | noContent => "no checklist content configured (set `content` or CHECKLIST_CONTENT)"
  | contentNotLoaded path => s!"failed to load checklist content from {path}"
  | progressNotOpened path => s!"failed to open progress file {path}"
  | progressNotSaved path => s!"failed to save progress file {path}"
  | valuesNotJson => "--values is not valid JSON"
  | valuesNotAnObject => "--values must be a JSON object"
  | notRead path => s!"failed to read {path}"
  | notWritten path => s!"failed to write {path}"
  | notImported error => "Import failed: " ++ error.message
  | notListening address => s!"cannot listen on {address}"

/-- A step of a command, which works on the files and may fail. -/
abbrev Run := ExceptT Failure (StateM Disk)

namespace Run

/-- What an option holds, or else a failure. -/
def orFail {α : Type} (failure : Failure) : Option α → Run α
  | some a => return a
  | none => throw failure

/-- Loads the checklist of the settings. -/
def loadChecklist (settings : Settings) : Run Checklist := do
  let path ← orFail .noContent settings.content
  let text ← orFail (.contentNotLoaded path) ((← get).read? path)
  match Json.parse? text with
  | none => throw (.contentNotLoaded path)
  | some json =>
    match Checklist.ofJson json with
    | .ok checklist => return checklist
    | .error _ => throw (.contentNotLoaded path)

/-- Loads the progress of the settings. -/
def loadProgress (settings : Settings) : Run Progress := do
  match Progress.openFile (← get) settings.progressKey settings.progressPath with
  | .ok progress => return progress
  | .error _ => throw (.progressNotOpened settings.progressPath)

/-- Loads the checklist and the progress, to which the entries count that the checklist itself
completes. -/
def loadBoth (settings : Settings) : Run (Checklist × Progress) := do
  let checklist ← loadChecklist settings
  let progress ← loadProgress settings
  return (checklist, progress.markAll checklist.defaults)

/-- Saves the progress of the settings. -/
def saveProgress (settings : Settings) (progress : Progress) : Run Unit := do
  let path := settings.progressPath
  if ← progress.save path then return () else throw (.progressNotSaved path)

/-- Writes a text to a file, or prints it as a line. -/
def write (output : Option String) (text : String) : Run String := do
  match output with
  | none => return text ++ "\n"
  | some path =>
    set (← orFail (.notWritten path) ((← get).write? path text))
    return ""

end Run

/-- The line that shows the state of an entry. -/
def Status.line (status : Status) : String :=
  (if status.completed then "[x] " else "[ ] ") ++
    (if status.code then "`" ++ status.title ++ "`" else status.title) ++
    (if status.locked then " [locked]" else "") ++ "  (" ++ status.key ++ ")\n"

/-- The line that shows the state of a section; groups are indented. -/
def SectionStatus.line (status : SectionStatus) : String :=
  (if status.key.toList.contains '/' then "  " else "") ++ status.title ++
    (if status.locked then " [locked]" else "") ++ "  (" ++ status.key ++ ")\n"

namespace Command

/-- The values that a text gives, or else those of the stored progress. -/
def valuesFor (settings : Settings) (given : Option String) : Run Values := do
  match given with
  | none => return (← Run.loadProgress settings).values
  | some text =>
    let json ← Run.orFail .valuesNotJson (Json.parse? text)
    Run.orFail .valuesNotAnObject (Values.ofJson? json)

/-- A condition written as JSON, or else as an expression. -/
def readCondition (text : String) : Json :=
  (Json.parse? text).getD (.string text)

/-- Decides a condition. -/
def runDecide (settings : Settings) (condition : String) (values : Option String) :
    Run String := do
  let values ← valuesFor settings values
  let gate := Gate.new settings.gate
  let (unlocked, _) := Gate.isUnlocked (some (readCondition condition)) values gate
  return if unlocked then "unlocked\n" else "locked\n"

/-- Lists the sections and their groups. -/
def runOutline (settings : Settings) (lockedOnly : Bool) : Run String := do
  let (checklist, progress) ← Run.loadBoth settings
  let (outline, _) := checklist.outline progress (Gate.new settings.gate)
  return String.join ((outline.filter fun s => !lockedOnly || s.locked).map SectionStatus.line)

/-- Lists the entries, and counts those that are completed. -/
def runStatus (settings : Settings) (lockedOnly : Bool) : Run String := do
  let (checklist, progress) ← Run.loadBoth settings
  let (statuses, _) := checklist.statuses progress (Gate.new settings.gate)
  let lines := (statuses.filter fun s => !lockedOnly || s.locked).map Status.line
  let completed := statuses.countP (·.completed)
  return String.join lines ++ s!"{completed}/{statuses.length} completed\n"

/-- Marks an entry or takes its mark off. Progress is saved only if that changed anything. -/
def runMark (settings : Settings) (key : String) (undo : Bool) : Run String := do
  let progress ← Run.loadProgress settings
  let (changed, progress) := progress.setCompleted key !undo
  if changed then
    Run.saveProgress settings progress
    return (if undo then "Unmarked " else "Marked ") ++ key ++ "\n"
  else
    return key ++ " unchanged\n"

/-- Changes the progression and shows it. Progress is saved only if a number is given. -/
def runProgression (settings : Settings) (gameMode region : Option Int64) : Run String := do
  let progress := (← Run.loadProgress settings).setProgression gameMode region
  if gameMode.isSome ∨ region.isSome then
    Run.saveProgress settings progress
  return progress.values.toJson.pretty ++ "\n"

/-- A snapshot of the stored progress, or a page of the checklist, if there is anything to
export. -/
def exportText? (settings : Settings) : ExportFormat → Run (Option String)
  | .json => do
    let progress ← Run.loadProgress settings
    return progress.exportText? settings.progressKey
  | .markdown => do
    let (checklist, progress) ← Run.loadBoth settings
    return checklist.markdown? progress settings.title

/-- Exports the progress. Where there is nothing to export nothing is written. -/
def runExport (settings : Settings) (format : ExportFormat) (output : Option String) :
    Run String := do
  match ← exportText? settings format with
  | some text => Run.write output text
  | none => return ""

/-- Takes over a snapshot. -/
def runImport (settings : Settings) (file : String) : Run String := do
  let text ← Run.orFail (.notRead file) ((← get).read? file)
  let progress ← Run.loadProgress settings
  match progress.importText text settings.progressKey with
  | .error e => throw (.notImported e)
  | .ok (count, progress) =>
    Run.saveProgress settings progress
    return s!"Imported {count} completed items\n"

/-- Prepares to answer requests. No connection is ever opened here. -/
def runServe (settings : Settings) (port : Option UInt16) : Run String := do
  let _ ← Run.loadBoth settings
  let address := settings.host ++ ":" ++ toString (port.getD settings.port).toNat
  if Settings.isAddress settings.host then
    throw (.notListening address)
  else
    throw (.settings (.listenAddress address))

/-- Carries out a command; gives what it prints. -/
def run (settings : Settings) : Command → Run String
  | decide condition values => runDecide settings condition values
  | status lockedOnly sections =>
    if sections then runOutline settings lockedOnly else runStatus settings lockedOnly
  | mark key undo => runMark settings key undo
  | progression gameMode region => runProgression settings gameMode region
  | exportTo format output => runExport settings format output
  | importFrom file => runImport settings file
  | serve port => runServe settings port

end Command

namespace Invocation

/-- The settings of the file that is named. -/
def fileSettings : Option String → Run Settings
  | none => return {}
  | some path => do
    let text ← Run.orFail (.settingsUnreadable path) ((← get).read? path)
    Run.orFail (.settingsNotYaml path) (Settings.ofFile? text)

/-- The settings of a run: those of the file that is named, then those of the environment. -/
def settings (invocation : Invocation) (env : Environment) : Run Settings := do
  let base ← fileSettings invocation.config
  match base.applyEnvironment env with
  | (settings, none) => return settings
  | (_, some e) => throw (.settings e)

/-- Carries out what was asked for; gives what is printed, or why it fails, and the files. -/
def run (invocation : Invocation) (env : Environment) (disk : Disk) :
    Except Failure String × Disk :=
  let action : Run String := do
    let settings ← invocation.settings env
    invocation.command.run settings
  action disk

end Invocation

end Questlog
