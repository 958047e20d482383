import Mathlib
import Questlog.Proofs.Command.Update
import Questlog.Proofs.Command.Words
import Questlog.Proofs.Progress.Snapshot

namespace Questlog

/-- A run of the program: its arguments and variables, the command that it came to, the files that it
found, how it ended and the files that it left. There is no command where the arguments, the variables
or the settings are not in order. -/
structure Execution where
  arguments : List String
  env : Environment
  command : Option Command
  before : Disk
  outcome : Outcome
  after : Disk

namespace Execution

/-- Whether a run exits without an error. -/
def isAccepted (run : Execution) : Bool :=
  run.outcome.code = 0

/-- Whether a run reports that a mark was there already, or was not there to be taken off. -/
def ReportsUnchanged (run : Execution) : Prop :=
  ∃ key undo, run.command = some (.mark key undo) ∧
    run.outcome.output = Command.unchangedLine key

/-- Whether a run comes to the command that its words ask for, where it finds these settings. -/
def IsFaithful (settings : Settings) (run : Execution) : Prop :=
  ∀ config command, Arguments.AsksFor config command run.arguments →
    Program.Finds config run.env run.before settings → run.command = some command

/-- What the command of a run makes of progress. -/
def apply (settings : Settings) (run : Execution) (progress : Progress) : Progress :=
  run.command.elim progress (·.apply settings run.before progress)

end Execution

/-- `Executions settings disk runs after`: runs that update the progress, all with the same settings,
and runs that come to no command. The first one finds the files of `disk`, each further one those that
the last one left, and `after` is what the last of all left. -/
inductive Executions (settings : Settings) : Disk → List Execution → Disk → Prop
  | none (disk : Disk) : Executions settings disk [] disk
  | update {disk next after : Disk} {arguments : List String} {env : Environment}
      {command : Command} {outcome : Outcome} {rest : List Execution} : command.isUpdate = true →
    Program.Asks arguments env disk settings command →
    Program.run arguments env disk = (outcome, next) → Executions settings next rest after →
    Executions settings disk (⟨arguments, env, some command, disk, outcome, next⟩ :: rest) after
  | stop {disk next after : Disk} {arguments : List String} {env : Environment}
      {outcome : Outcome} {rest : List Execution} :
    (∀ settings command, ¬ Program.Asks arguments env disk settings command) →
    Program.run arguments env disk = (outcome, next) → Executions settings next rest after →
    Executions settings disk (⟨arguments, env, Option.none, disk, outcome, next⟩ :: rest) after

namespace Executions

variable {settings : Settings} {disk next after : Disk} {arguments : List String} {env : Environment}
  {command : Command} {outcome : Outcome} {run : Execution} {rest : List Execution}

/-- The progress that accepted runs make of the given one. -/
def replay (settings : Settings) (progress : Progress) (runs : List Execution) : Progress :=
  (runs.filter (·.isAccepted)).foldl (fun progress run => run.apply settings progress) progress

/-- What one run does, whatever comes after it: a run that is refused, or that reports a mark as
unchanged, leaves the files alone, an update is refused only for what hinders it, and the next run
opens what this one leaves to be replayed. -/
structure CarriesOver (settings : Settings) (run : Execution) : Prop where
  untouched : run.isAccepted = false ∨ run.ReportsUnchanged → run.after = run.before
  hindered : run.isAccepted = false → ∀ command ∈ run.command,
    command.IsHindered settings run.before
  opened : ∀ rest, (Progress.openFile run.after settings.progressKey settings.progressPath).map
      (replay settings · rest) =
    (Progress.openFile run.before settings.progressKey settings.progressPath).map
      (replay settings · (run :: rest))

/-- `Composed settings disk runs after`: after the runs, the first of which finds the files of `disk`,
the progress that is opened is the one that they replay. Each run that is refused, or that reports a
mark as unchanged, left the files as they were, and each update that is refused was hindered. -/
structure Composed (settings : Settings) (disk : Disk) (runs : List Execution) (after : Disk) :
    Prop where
  opened : Progress.openFile after settings.progressKey settings.progressPath =
    (Progress.openFile disk settings.progressKey settings.progressPath).map
      (replay settings · runs)
  untouched : ∀ run ∈ runs, run.outcome.code ≠ 0 ∨ run.ReportsUnchanged → run.after = run.before
  hindered : ∀ run ∈ runs, run.outcome.code ≠ 0 → ∀ command ∈ run.command,
    command.IsHindered settings run.before
  faithful : ∀ run ∈ runs, run.IsFaithful settings

theorem CarriesOver.cons (h : CarriesOver settings run) (hfaithful : run.IsFaithful settings)
    (hrest : Composed settings run.after rest after) :
    Composed settings run.before (run :: rest) after where
  opened := hrest.opened.trans (h.opened rest)
  untouched := List.forall_mem_cons.mpr
    ⟨fun hquiet => h.untouched (hquiet.imp_left decide_eq_false), hrest.untouched⟩
  hindered := List.forall_mem_cons.mpr
    ⟨fun hcode => h.hindered (decide_eq_false hcode), hrest.hindered⟩
  faithful := List.forall_mem_cons.mpr ⟨hfaithful, hrest.faithful⟩

/-- Runs that start where others stopped go on from there. -/
theorem append {middle : Disk} {runs more : List Execution} (h : Executions settings disk runs middle)
    (hmore : Executions settings middle more after) :
    Executions settings disk (runs ++ more) after := by
  induction h with
  | none disk => exact hmore
  | update hupdate hasks hrun _ ih => exact .update hupdate hasks hrun (ih hmore)
  | stop hnone hrun _ ih => exact .stop hnone hrun (ih hmore)

end Executions

end Questlog
