import Questlog.Checklist.Status
import Questlog.Progress.File

namespace Questlog

/-- The state of the service. Without a file progress is kept in memory only. -/
structure Service where
  checklist : Checklist
  title : String
  progressKey : String
  gate : Gate
  progress : Progress
  file : Option String := none
  disk : Disk := {}

namespace Service

/-- Saves the progress, and tells whether that was possible. -/
def save : StateM Service Bool := fun service =>
  match service.file with
  | none => (true, service)
  | some path =>
    let (saved, disk) := service.progress.save path service.disk
    (saved, { service with disk })

/-- Lets the gate decide. -/
def withGate {α : Type} (decide : StateM Gate α) : StateM Service α := fun service =>
  let (answer, gate) := decide service.gate
  (answer, { service with gate })

end Service

end Questlog
