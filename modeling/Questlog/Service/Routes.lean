import Questlog.Checklist.Markdown
import Questlog.Progress.Export
import Questlog.Service.Basic
import Questlog.Service.MediaType
import Questlog.Service.Message
import Questlog.Service.Update

namespace Questlog

/-- What the service can be asked for. Three routes change the progress, by marking an item, setting
the progression or importing a snapshot; the others only read it. -/
inductive Route where
  | health
  | evaluate
  | checklist
  | setItem
  | setProgression
  | exportProgress
  | importProgress
  | exportMarkdown
deriving DecidableEq

namespace Route

/-- The route at a path. -/
def ofPath? (path : String) : Option Route :=
  [("/api/health", health), ("/api/evaluate", evaluate), ("/api/checklist", checklist),
    ("/api/progress/items", setItem), ("/api/progress/progression", setProgression),
    ("/api/progress/export", exportProgress), ("/api/progress/import", importProgress),
    ("/api/export/markdown", exportMarkdown)].lookup path

/-- The method of a route. -/
def method : Route → String
  | health | checklist | exportProgress | exportMarkdown => "GET"
  | evaluate | importProgress => "POST"
  | setItem | setProgression => "PUT"

end Route

/-- The most bytes that the body of a request may have. -/
def Request.maxBody : Nat := 2 * 1024 * 1024

/-- What a body denotes, or the response that refuses it. -/
def Request.read {α : Type} (request : Request) (parse : String → Except Body.Fault α) :
    Except Response α :=
  if (request.contentType.any MediaType.isJson) = false then
    .error (.bare 415)
  else if request.body.utf8ByteSize > maxBody then
    .error (.bare 413)
  else
    match parse request.body with
    | .ok a => .ok a
    | .error .malformed => .error (.bare 400)
    | .error .wrongShape => .error (.bare 422)

/-- The state of an entry as JSON. -/
def Status.toJson (status : Status) : Json :=
  .object [("key", .string status.key), ("title", .string status.title),
    ("completed", .bool status.completed), ("locked", .bool status.locked),
    ("code", .bool status.code)]

/-- The state of a section as JSON. -/
def SectionStatus.toJson (status : SectionStatus) : Json :=
  .object [("key", .string status.key), ("title", .string status.title),
    ("locked", .bool status.locked)]

namespace Service

/-- The response to a change that could not be saved. Its text stands in for what the system says of
the cause. -/
def notSaved : Response :=
  .refusal 500 "progress could not be saved"

/-- Saves the progress and answers with `reply`, or tells that saving failed. -/
def savedThen (reply : Response) : StateM Service Response := do
  if ← save then return reply else return notSaved

/-- Decides a condition. -/
def evaluate (evaluation : Evaluation) : StateM Service Response := do
  let { progress, .. } ← get
  let values? := match evaluation.values with
    | some given => Values.ofJson? given
    | none => some progress.values
  match values? with
  | none => return .refusal 400 "values must be an object"
  | some values =>
    let unlocked ← withGate (Gate.isUnlocked evaluation.condition values)
    return .json 200 (.object [("unlocked", .bool unlocked)])

/-- The checklist with the states of its entries and sections. -/
def showChecklist : StateM Service Response := do
  let { checklist, title, progress, .. } ← get
  let items ← withGate (checklist.statuses progress)
  let sections ← withGate (checklist.outline progress)
  return .json 200 (.object [
    ("title", .string title),
    ("total", .ofNat items.length),
    ("completed", .ofNat (items.countP (·.completed))),
    ("values", progress.values.toJson),
    ("sections", .array (sections.map SectionStatus.toJson)),
    ("items", .array (items.map Status.toJson))])

/-- Marks an item or takes its mark off. Progress is saved only if that changed anything, and it
stays changed where saving fails. -/
def setItem (update : ItemUpdate) : StateM Service Response := do
  let (changed, progress) := (← get).progress.setCompleted update.key update.completed
  modify fun service => { service with progress }
  let reply := Response.json 200 (.object [("key", .string update.key),
    ("completed", .bool update.completed), ("changed", .bool changed)])
  if changed then savedThen reply else return reply

/-- Sets the progression, which stays changed where saving fails. -/
def setProgression (update : ProgressionUpdate) : StateM Service Response := do
  let progress := (← get).progress.setProgression update.gameMode update.region
  modify fun service => { service with progress }
  savedThen (.json 200 (.object [("values", progress.values.toJson)]))

/-- A snapshot of the progress, if anything is completed. -/
def exportProgress : StateM Service Response := do
  let { progress, progressKey, .. } ← get
  return match progress.exportText? progressKey with
    | some text => .jsonText 200 text
    | none => .bare 204

/-- Takes over a snapshot, which stays in effect where saving fails. -/
def importProgress (text : String) : StateM Service Response := do
  let { progress, progressKey, .. } ← get
  match progress.importText text progressKey with
  | .error e => return .refusal 400 ("Import failed: " ++ e.message)
  | .ok (count, progress) =>
    modify fun service => { service with progress }
    savedThen (.json 200 (.object [("imported", .ofNat count)]))

/-- The checklist as a page, if it has any section. -/
def exportMarkdown : StateM Service Response := do
  let { checklist, title, progress, .. } ← get
  return match checklist.markdown? progress title with
    | some page => .markdown page
    | none => .bare 204

/-- Carries out what the body of a request asks for, unless that is refused. -/
def whenRead {α : Type} (request : Request) (parse : String → Except Body.Fault α)
    (carryOut : α → StateM Service Response) : StateM Service Response :=
  match request.read parse with
  | .ok a => carryOut a
  | .error response => return response

/-- Answers a request that fits the route. -/
def answerAt (route : Route) (request : Request) : StateM Service Response :=
  match route with
  | .health => return .json 200 (.object [("status", .string "ok")])
  | .evaluate => whenRead request Evaluation.parse evaluate
  | .checklist => showChecklist
  | .setItem => whenRead request ItemUpdate.parse setItem
  | .setProgression => whenRead request ProgressionUpdate.parse setProgression
  | .exportProgress => exportProgress
  | .importProgress =>
    if request.body.utf8ByteSize > Request.maxBody then return .bare 413
    else importProgress request.body
  | .exportMarkdown => exportMarkdown

/-- Answers a request. Any path may be asked for its options, and a route that can be read also for
the head of its response. -/
def answer (request : Request) : StateM Service Response :=
  if request.method = "OPTIONS" then
    return .bare 200
  else
    match Route.ofPath? request.path with
    | none => return .bare 404
    | some route =>
      if request.method = route.method then
        answerAt route request
      else if request.method = "HEAD" ∧ route.method = "GET" then
        Response.head <$> answerAt route request
      else
        return .bare 405

end Service

end Questlog
