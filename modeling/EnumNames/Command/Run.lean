import EnumNames.Command.Result
import EnumNames.Digest.Sha256
import EnumNames.Disk.Store

/-!
# Carrying out an invocation

A run reads the manifest, generates the file, and delivers it: to standard output, into the output,
or by comparing it with the output. Nothing is written before all of the file is there.

* `generateFor` is the part of a run that only depends on the bytes of the manifest.
* `deliver` touches the output, `run` is the whole.
-/

namespace EnumNames.Command

/-- What a run has generated. -/
structure Generated where
  file : GeneratedFile
  /-- What happened on the way. -/
  events : List Event
  deriving DecidableEq, Repr

/-- Generates the file for a manifest. Types that could not be converted are recorded last. -/
def generateFor (v : Invocation) (bytes : List UInt8) : Except RunError Generated := do
  let manifest ← (Manifest.read bytes).mapError (.invalidManifest v.manifest)
  let resolved := manifest.resolve v.types v.policy
  let header : Header := ⟨v.headerArguments, some (Digest.Sha256.hex bytes)⟩
  let file ← (GeneratedFile.generate v.options header resolved.types).mapError .invalidOptions
  return {
    file := resolved.errors.foldl GeneratedFile.record file
    events := GeneratedFile.events v.options resolved.types file
      ++ resolved.errors.map .refused }

variable {m : Type → Type} [Monad m] [FileStore m]

/-- Compares a text with the output. -/
def checkOutput (path source : String) : m (Except RunError Unit) := do
  match ← FileStore.read path with
  | .error e => return .error (.unreadableOutput path e)
  | .ok bytes =>
    match Json.ofUtf8? bytes with
    | none => return .error (.unreadableOutput path .notText)
    | some current =>
      return if current = source then .ok () else .error (.outputDiffers path)

/-- Writes a text to a path. -/
def writeText (path source : String) : m (Except RunError Unit) := do
  return (← FileStore.write path source.toUTF8.toList).mapError (.unwritableOutput path)

/-- Writes a text to the output, after making the directories that enclose it. -/
def writeOutput (path source : String) : m (Except RunError Unit) := do
  match Disk.parent? path with
  | none => writeText path source
  | some directory =>
    match ← FileStore.makeDirectories directory with
    | .error e => return .error (.noDirectory directory e)
    | .ok () => writeText path source

/-- What a delivery adds to standard output and to the log. -/
structure Delivery where
  stdout : String := ""
  log : List LogLine := []
  deriving DecidableEq, Repr

/-- Delivers the file. An output is kept if no type was generated. -/
def deliver (v : Invocation) (file : GeneratedFile) : m (Except RunError Delivery) := do
  match v.output with
  | none => return .ok { stdout := file.source }
  | some path =>
    if v.check then
      return (← checkOutput path file.source).map fun _ => {}
    else if file.generatedCount = 0 then
      return .ok { log := [.untouched path] }
    else
      return (← writeOutput path file.source).map fun _ => {}

/-- The option that lacks an output, if there is one. -/
def lacksOutput? (v : Invocation) : Option String :=
  if v.output.isSome then none
  else if v.check then some "--check"
  else if v.reportJson then some "--report-json"
  else none

/-- The result of a run that stops with an error after some log lines. -/
def Result.failure (log : List LogLine) (e : RunError) : Result :=
  ⟨2, "", log, some e⟩

/-- Reads the manifest and generates the file. -/
def generated (v : Invocation) : m (Except RunError Generated) := do
  match lacksOutput? v with
  | some name => return .error (.needsOutput name)
  | none =>
    match ← FileStore.read v.manifest with
    | .error e => return .error (.unreadableManifest v.manifest e)
    | .ok bytes => return generateFor v bytes

/-- The whole run. -/
def run (v : Invocation) : m Result := do
  match ← generated v with
  | .error e => return .failure [] e
  | .ok ⟨file, events⟩ =>
    let log := events.flatMap LogLine.ofEvent
    match ← deliver v file with
    | .error e => return .failure (visibleLines v.logLevel log) e
    | .ok delivery =>
      return {
        exitCode := exitCodeOf file
        stdout := delivery.stdout ++ if v.reportJson then reportText v file else ""
        log := visibleLines v.logLevel (log ++ delivery.log ++ [.done file])
        error := none }

end EnumNames.Command
