import EnumNames.Command.Invocation
import EnumNames.Disk.Basic
import EnumNames.Manifest.Document
import EnumNames.Records
import EnumNames.Text.Terminal

/-!
# Results of a run

A run ends with an exit code, a text on standard output, the lines of its log, and an error if it
could not do its work. The code is 0 if every type was generated, 1 if some were not, and 2 for an
error.
-/

namespace EnumNames.Command

/-- Why a run cannot do its work. -/
inductive RunError
  /-- An option that makes sense only together with an output. -/
  | needsOutput (name : String)
  | unreadableManifest (path : String) (e : FileError)
  | invalidManifest (path : String) (e : ManifestError)
  | invalidOptions (e : OptionsError)
  | unreadableOutput (path : String) (e : FileError)
  /-- The output is not what would be generated. -/
  | outputDiffers (path : String)
  | noDirectory (path : String) (e : FileError)
  | unwritableOutput (path : String) (e : FileError)
  deriving DecidableEq, Repr

namespace RunError

/-- A manifest error with its causes; a reading error is its own cause once more. -/
def manifestChain : ManifestError → String
  | .unreadable e => (ManifestError.unreadable e).message ++ ": " ++ e.message
  | e => e.message

/-- The error in words. -/
def message : RunError → String
  | needsOutput name => name ++ " requires --output"
  | unreadableManifest path e => "read manifest: " ++ path ++ ": " ++ e.message
  | invalidManifest path e => "load manifest: " ++ path ++ ": " ++ manifestChain e
  | invalidOptions e => "invalid generation options: " ++ e.message
  | unreadableOutput path e => "read existing output: " ++ path ++ ": " ++ e.message
  | outputDiffers path => "generated output differs: " ++ path
  | noDirectory path e => "create output dir: " ++ path ++ ": " ++ e.message
  | unwritableOutput path e => "write output: " ++ path ++ ": " ++ e.message

end RunError

/-! ## Log lines -/

/-- One line of the log. -/
structure LogLine where
  level : LogLevel
  /-- The part of the program that the line comes from. -/
  target : String
  message : String
  /-- What the line is about, by name. -/
  fields : List (String × String) := []
  deriving DecidableEq, Repr

namespace LogLine

/-- The text of a line; its message has no power over a terminal. -/
def text (l : LogLine) : String :=
  l.level.name ++ " " ++ l.target ++ ": " ++ Text.harmless l.message
    ++ String.join (l.fields.map fun (name, value) => " " ++ name ++ "=" ++ value)

/-- The lines about an event of the generator. -/
def ofEvent (e : Event) : List LogLine :=
  e.messages.map fun message => ⟨e.level, "stringer_core::generate", message, e.fields⟩

/-- A line of the run itself. -/
def ofRun (level : LogLevel) (message : String) (fields : List (String × String)) : LogLine :=
  ⟨level, "stringer", message, fields⟩

/-- The notice about an output that is kept. -/
def untouched (path : String) : LogLine :=
  ofRun .warn ("no type generated; leaving " ++ path ++ " untouched") []

/-- The last line of a run. -/
def done (file : GeneratedFile) : LogLine :=
  ofRun .info "stringer done"
    [("types", toString file.generatedCount),
      ("failed", toString (file.types.length - file.generatedCount)),
      ("verified", toString file.verified)]

end LogLine

/-- The lines of a log at a level. -/
def visibleLines (level : LogLevel) (lines : List LogLine) : List LogLine :=
  lines.filter fun line => level.rank ≤ line.level.rank

/-! ## Reports -/

/-- The version of the schema of reports. -/
def reportSchemaVersion : String :=
  "stringer.report@0.1.0"

/-- The exit code of a run that did its work. -/
def exitCodeOf (file : GeneratedFile) : Nat :=
  if file.ok then 0 else 1

/-- The report of a run. -/
def reportTree (v : Invocation) (file : GeneratedFile) : Json.Tree :=
  .record ([("schema_version", .text reportSchemaVersion),
      ("command", .text (if v.check then "check" else "generate")), ("ok", .bool file.ok),
      ("manifest", .text v.manifest), ("output", .text (v.output.getD "")),
      ("verified", .bool file.verified), ("types", .list (file.types.map TypeReport.tree)),
      ("diagnostics_count", .natural file.diagnostics.length)]
    ++ (if file.diagnostics.isEmpty then []
      else [("diagnostics", .list (file.diagnostics.map Diagnostic.tree))])
    ++ [("exit_code", .natural (exitCodeOf file))])

/-- The text of a report. -/
def reportText (v : Invocation) (file : GeneratedFile) : String :=
  (reportTree v file).render ++ "\n"

/-- How a run ends. -/
structure Result where
  exitCode : Nat
  stdout : String
  log : List LogLine
  error : Option RunError
  deriving DecidableEq, Repr

end EnumNames.Command
