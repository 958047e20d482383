import Questlog.Command.Program

namespace Questlog

namespace Run

variable {α β : Type} {disk next : Disk} {first : Run α} {behind : α → Run β} {a : α}
  {failure : Failure}

/-- Steps of a command are followed one by one: behind a step that succeeds the next one goes on. -/
theorem bind_of_ok (h : first disk = (.ok a, next)) : (first >>= behind) disk = behind a next := by
  have hbind : (first >>= behind) disk =
      ExceptT.bindCont behind (first disk).1 (first disk).2 := rfl
  rw [hbind, h]
  rfl

variable {settings : Settings} {progress : Progress} {e : ProgressFileError}

end Run

namespace Program

/-- `Asks arguments env disk settings command`: the program is asked for the command, which it carries
out with these settings. -/
def Asks (arguments : List String) (env : Environment) (disk : Disk) (settings : Settings)
    (command : Command) : Prop :=
  ∃ env' config, environment? env disk = some env' ∧
    Arguments.parse arguments = .ok { config, command } ∧
    Invocation.settings { config, command } env' disk = (.ok settings, disk)

/-- The settings that a run finds in the file that is named and in the variables. -/
def Finds (config : Option String) (env : Environment) (disk : Disk) (settings : Settings) : Prop :=
  ∃ env', environment? env disk = some env' ∧
    ∀ command, Invocation.settings { config, command } env' disk = (.ok settings, disk)

variable {arguments : List String} {env : Environment} {disk next : Disk} {settings : Settings}
  {command other : Command}

/-- What is asked for is one command. -/
theorem Asks.unique (h : Asks arguments env disk settings command)
    (h' : Asks arguments env disk settings other) : command = other := by
  obtain ⟨_, _, _, hparse, _⟩ := h
  obtain ⟨_, _, _, hparse', _⟩ := h'
  exact (Invocation.mk.inj (Except.ok.inj (hparse.symm.trans hparse'))).2

/-- How a run ends whose command gives the text to be printed or a failure. -/
def outcomeOf (result : Except Failure String) : Outcome :=
  match result with
  | .ok printed => .done printed
  | .error failure => .failed failure

/-- Once it is known what is asked for, the command decides how the run ends. The command alone
decides what is printed and what becomes of the files. -/
theorem Asks.run (h : Asks arguments env disk settings command) :
    Program.run arguments env disk =
      (outcomeOf (command.run settings disk).1, (command.run settings disk).2) := by
  obtain ⟨env', config, henvironment, hparse, hsettings⟩ := h
  have hcarried : Invocation.run { config, command } env' disk = command.run settings disk :=
    Run.bind_of_ok hsettings
  simp only [Program.run, henvironment, hparse, hcarried]
  rcases command.run settings disk with ⟨_ | _, _⟩ <;> rfl

end Program

end Questlog
