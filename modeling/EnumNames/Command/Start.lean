import EnumNames.Command.Arguments
import EnumNames.Command.Run

/-!
# Starting a run

Arguments that are accepted start a run; others start none. The exit code tells arguments that are
not understood, and runs that fail, from runs that do their work.

* `start` does what arguments ask for, `endCode` is the exit code of the whole.
-/

namespace EnumNames.Command

/-- The exit code of arguments that start no run. To ask for help is no error. -/
def UsageError.exitCode : UsageError → Nat
  | helpWanted => 0
  | _ => 2

variable {m : Type → Type} [Monad m] [FileStore m]

/-- Runs what some arguments ask for. Arguments that are not accepted start no run. -/
def start (arguments : List String) : m (Except UsageError Result) := do
  match Invocation.ofArguments arguments with
  | .error e => return .error e
  | .ok v => return .ok (← run v)

/-- The exit code of the program. -/
def endCode : Except UsageError Result → Nat
  | .error e => e.exitCode
  | .ok r => r.exitCode

end EnumNames.Command
