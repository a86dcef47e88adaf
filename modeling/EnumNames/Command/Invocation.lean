import EnumNames.Generated.Event
import EnumNames.Manifest.Resolve
import EnumNames.Options

/-!
# Invocations

What the command line asks for, once its arguments are understood.

* `Invocation.headerArguments` lists the arguments that shape the emitted code; where the code goes
  and what else is done with it is left out, so that a check compares like with like.
-/

namespace EnumNames.Command

/-- What is asked for. -/
structure Invocation where
  /-- Path of the manifest. -/
  manifest : String
  /-- The names of the types asked for; none asks for all. -/
  types : List String := []
  /-- Path of the output; without one the code goes to standard output. -/
  output : Option String := none
  lookup : String := ""
  runThreshold : Option Nat := none
  lookupThresholds : Option (Nat × Nat) := none
  trimmed : String := ""
  lineComment : Bool := false
  /-- Compare with the output instead of writing it. -/
  check : Bool := false
  /-- Report to standard output what was done. -/
  reportJson : Bool := false
  verbose : Bool := false
  quiet : Bool := false
  deriving DecidableEq, Repr

namespace Invocation

/-- The options of the generator. -/
def options (v : Invocation) : Options :=
  let standard : Options := {}
  { lookupTemplate := v.lookup
    runThreshold := v.runThreshold.getD standard.runThreshold
    lookupThresholds := v.lookupThresholds.getD standard.lookupThresholds }

/-- How constants are named. -/
def policy (v : Invocation) : NamingPolicy :=
  ⟨v.trimmed, v.lineComment⟩

/-- The level of the events that are logged. -/
def logLevel (v : Invocation) : LogLevel :=
  if v.verbose then .debug else if v.quiet then .warn else .info

/-- The text of a pair of thresholds. -/
def thresholdsText (thresholds : Nat × Nat) : String :=
  toString thresholds.1 ++ "," ++ toString thresholds.2

/-- The arguments that shape the code, one after the other. -/
def headerArguments (v : Invocation) : String :=
  String.intercalate " "
    ((if v.types.isEmpty then [] else ["--type " ++ String.intercalate "," v.types])
      ++ (if v.lookup.isEmpty then [] else ["--lookup " ++ v.lookup])
      ++ v.runThreshold.toList.map (fun n => "--run-threshold " ++ toString n)
      ++ v.lookupThresholds.toList.map (fun t => "--lookup-thresholds " ++ thresholdsText t)
      ++ (if v.trimmed.isEmpty then [] else ["--trim-prefix " ++ v.trimmed])
      ++ (if v.lineComment then ["--line-comment"] else []))

end Invocation

end EnumNames.Command
