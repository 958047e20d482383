import Questlog.Json.Parser
import Questlog.Json.Printer
import Questlog.Progress.Basic

namespace Questlog

/-- Why a snapshot is refused. -/
inductive ImportError where
  | invalidFormat
  | otherKey (found expected : String)
  | missingKey
  | completedNotAList
  | entryNotText (entry : Json)

/-- The message of a refusal, without what the JSON reader adds of the place of a fault. -/
def ImportError.message : ImportError → String
  | invalidFormat => "invalid file format"
  | otherKey found expected => s!"file belongs to '{found}', expected '{expected}'"
  | missingKey => "missing progress key"
  | completedNotAList => "completed must be a list"
  | entryNotText entry => s!"completed entry {entry.compact} is not a string"

namespace Progress

/-- A snapshot with the completed keys in ascending order; none where nothing is completed. It names
the checklist that it belongs to, so that it is not taken for one of another. -/
def snapshot? (progress : Progress) (checklist : String) : Option Json :=
  if progress.completed.isEmpty then
    none
  else
    some (.object [("key", .string checklist),
      ("completed", .array ((progress.completed.mergeSort (· ≤ ·)).map .string))])

/-- The text of a snapshot. -/
def exportText? (progress : Progress) (checklist : String) : Option String :=
  (progress.snapshot? checklist).map Json.pretty

/-- The keys of a list, all of which have to be texts. -/
def readKeys : List Json → Except ImportError (List String)
  | [] => .ok []
  | .string key :: rest =>
    match readKeys rest with
    | .ok keys => .ok (key :: keys)
    | .error e => .error e
  | entry :: _ => .error (.entryNotText entry)

/-- The keys of a snapshot of a checklist. -/
def readSnapshot (checklist : String) (data : Json) : Except ImportError (List String) :=
  match data.member? "key" with
  | some (.string key) =>
    if key = checklist then
      match data.member? "completed" with
      | some (.array entries) => readKeys entries
      | _ => .error .completedNotAList
    else
      .error (.otherKey key checklist)
  | _ => .error .missingKey

/-- The keys in the text of a snapshot of a checklist. -/
def importKeys (text checklist : String) : Except ImportError (List String) :=
  match Json.parse? text with
  | none => .error .invalidFormat
  | some data => readSnapshot checklist data

/-- Completes exactly the keys of a snapshot, and tells how many they are. -/
def importText (progress : Progress) (text checklist : String) :
    Except ImportError (Nat × Progress) :=
  match importKeys text checklist with
  | .error e => .error e
  | .ok keys =>
    let progress := progress.replaceCompleted keys
    .ok (progress.completed.length, progress)

end Progress

end Questlog
