import Questlog.Command.Arguments
import Questlog.Command.Run
import Questlog.Settings.VariableFile

namespace Questlog

/-- How a run ends. It breaks off at once where the file of variables makes it impossible to go
on. -/
inductive Outcome where
  | done (printed : String)
  | failed (failure : Failure)
  | stopped (stop : Arguments.Stop)
  | brokenOff

namespace Outcome

/-- The exit code. -/
def code : Outcome → UInt32
  | done _ => 0
  | failed _ => 1
  | stopped .usage => 2
  | stopped _ => 0
  | brokenOff => 101

/-- What is printed to standard output. -/
def output : Outcome → String
  | done printed => printed
  | stopped .version => Arguments.version ++ "\n"
  | stopped .help => Arguments.usage
  | _ => ""

/-- What is printed to standard error. -/
def complaint : Outcome → String
  | failed failure => "Error: " ++ failure.message ++ "\n"
  | stopped .usage => Arguments.usage
  | brokenOff => "failed to set an environment variable\n"
  | _ => ""

end Outcome

namespace Program

/-- The variables of a run, to which the file `.env` may add. -/
def environment? (env : Environment) (disk : Disk) : Option Environment :=
  env.withFile? ((disk.read? ".env").getD "")

/-- Runs the program. The file of variables comes first, before any look at the arguments. What
counts of a run is what it prints, its exit code and the files it leaves. -/
def run (arguments : List String) (env : Environment) : StateM Disk Outcome := fun disk =>
  match environment? env disk, Arguments.parse arguments with
  | none, _ => (.brokenOff, disk)
  | some _, .error stop => (.stopped stop, disk)
  | some env, .ok invocation =>
    match invocation.run env disk with
    | (.ok printed, disk) => (.done printed, disk)
    | (.error failure, disk) => (.failed failure, disk)

end Program

end Questlog
