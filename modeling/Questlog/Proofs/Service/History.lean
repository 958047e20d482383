import Mathlib
import Questlog.Proofs.Progress.Completed
import Questlog.Proofs.Service.Asked
import Questlog.Proofs.Service.Refusal

namespace Questlog

namespace Change

variable {α : Type} {progress : Progress} {key : String}

/-- What a change makes of a key, if it concerns it: whether it is completed. -/
def completes? (key : String) : Change → Option Bool
  | item update => if update.key = key then some update.completed else none
  | progression _ => none
  | replace keys => some (keys.contains key)

/-- The game mode that a change sets. -/
def gameMode? : Change → Option Int64
  | progression update => update.gameMode
  | _ => none

/-- The region that a change sets. -/
def region? : Change → Option Int64
  | progression update => update.region
  | _ => none

/-- The last thing that changes say, or what was the case before where they say nothing. -/
def last (says? : Change → Option α) (before : α) (changes : List Change) : α :=
  (changes.filterMap says?).getLast?.getD before

end Change

namespace Exchange

/-- The change that was accepted in an exchange. -/
def accepted? (progressKey : String) (exchange : Exchange) : Option Change :=
  if exchange.response.isSuccess then exchange.request.change? progressKey else none

/-- What is accepted in an exchange is what the request asks for by its method, its path and the JSON
value of its body. A body that is JSON is read as its JSON value, and as nothing else. Unless it could
not be saved, a snapshot is accepted however it is written, and any change is if it is spelled out. -/
structure IsFaithful (progressKey : String) (exchange : Exchange) : Prop where
  asked : exchange.response.isSuccess = true → ∀ change,
    exchange.accepted? progressKey = some change ↔ exchange.request.AsksFor progressKey change
  json : ∀ json, Json.parse? exchange.request.body = some json → ∀ read,
    Json.ReadsLeniently exchange.request.body read ↔ read = json
  snapshot : ∀ keys, exchange.request.AsksFor progressKey (.replace keys) →
    exchange.request.body.utf8ByteSize ≤ Request.maxBody → exchange.response.status ≠ 500 →
    exchange.accepted? progressKey = some (.replace keys)
  spelled : ∀ change, exchange.request.SpellsOut progressKey change →
    exchange.response.status ≠ 500 → exchange.accepted? progressKey = some change

/-- The changes that were accepted while things happened, in their order. -/
def changes (progressKey : String) (exchanges : List (Option Exchange)) : List Change :=
  exchanges.filterMap (·.bind (accepted? progressKey))

end Exchange

namespace Service

variable {service : Service} {request : Request}

section Refusals

end Refusals

section Runs

end Runs

/-- What a service shows after changes: of a key, of the game mode and of the region what the last
change made of it, and what it was at the start where none concerned it. -/
structure Follows (start : Service) (changes : List Change) (now : Service) : Prop where
  completed : ∀ key, now.progress.isCompleted key =
    Change.last (·.completes? key) (start.progress.isCompleted key) changes
  gameMode : now.progress.gameMode = Change.last (·.gameMode?) start.progress.gameMode changes
  region : now.progress.lastRegion = Change.last (·.region?) start.progress.lastRegion changes
  progressKey : now.progressKey = start.progressKey

/-- A service that keeps its progress in memory only. -/
def inMemory : Service :=
  { checklist := {}
    title := ""
    progressKey := "ns"
    gate := Gate.new {}
    progress := { scope := "ns" } }

end Service

end Questlog
