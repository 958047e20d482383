import Questlog.Proofs.Command.Program
import Questlog.Proofs.Progress.Completed
import Questlog.Proofs.Progress.Saved
import Questlog.Proofs.Progress.Snapshot

namespace Questlog

namespace Command

/-- Whether a command marks an entry, sets the progression or takes over a snapshot. -/
def isUpdate : Command → Bool
  | mark _ _ | progression _ _ | importFrom _ => true
  | _ => false

/-- The keys of the snapshot in a file. -/
def snapshotKeys? (settings : Settings) (disk : Disk) (file : String) : Option (List String) :=
  (disk.read? file).bind fun text => (Progress.importKeys text settings.progressKey).toOption

/-- What a command makes of progress. A mark puts its key behind the others unless it is there, and
taking it off leaves the order of the rest; of the two numbers only those that are given change; a
snapshot, which is found on `disk`, replaces the completed keys by its own, each where it first
comes. -/
def apply (settings : Settings) (disk : Disk) (progress : Progress) : Command → Progress
  | mark key undo =>
    { progress with
      completed := if undo then progress.completed.erase key
        else if key ∈ progress.completed then progress.completed
        else progress.completed ++ [key] }
  | progression gameMode region =>
    { progress with
      gameMode := gameMode.getD progress.gameMode
      lastRegion := region.getD progress.lastRegion }
  | importFrom file =>
    { progress with
      completed := ((snapshotKeys? settings disk file).map List.eraseDups).getD progress.completed }
  | _ => progress

/-- The line that tells that a mark was there already, or was not there to be taken off. -/
def unchangedLine (key : String) : String :=
  key ++ " unchanged\n"

/-- What an update can be refused for: the progress cannot be opened, or there is no snapshot to be
taken over. -/
def IsHindered (settings : Settings) (disk : Disk) (command : Command) : Prop :=
  (∀ progress,
    Progress.openFile disk settings.progressKey settings.progressPath ≠ .ok progress) ∨
    ∃ file, command = .importFrom file ∧ snapshotKeys? settings disk file = none

/-- `command.Ends settings disk result`: the ways in which an update ends, each with the files that
it leaves. So whoever opens the progress next finds what the command made of it. -/
inductive Ends (settings : Settings) (disk : Disk) (command : Command) :
    Except Failure String × Disk → Prop
  | refused {failure : Failure} : command.IsHindered settings disk →
    Ends settings disk command (.error failure, disk)
  | kept {progress : Progress} {printed : String} :
    Progress.openFile disk settings.progressKey settings.progressPath = .ok progress →
    command.apply settings disk progress = progress →
    Ends settings disk command (.ok printed, disk)
  | saved {progress : Progress} {printed : String} {after : Disk} :
    Progress.openFile disk settings.progressKey settings.progressPath = .ok progress →
    (command.apply settings disk progress).save settings.progressPath disk = (true, after) →
    (∀ key undo, command = .mark key undo → printed ≠ unchangedLine key) →
    Ends settings disk command (.ok printed, after)
  | notSaved {after : Disk} :
    Ends settings disk command (.error (.progressNotSaved settings.progressPath), after)

variable {settings : Settings} {disk : Disk} {progress : Progress} {command : Command}

section Progress

end Progress

section Steps

end Steps

end Command

end Questlog
