import EnumNames.Command.Invocation
import EnumNames.Command.Thresholds

/-!
# Arguments

An argument is a long name after two dashes, letters after one dash, or a plain text. An option has
a value, attached by an equals sign or in the next argument; a flag has none. No option but the
names of types may be given twice, nor may a flag.

A value in an argument of its own is read when the next option or flag is met, or at the end; until
then an argument that is not understood is the graver error.
-/

namespace EnumNames.Command

/-- An option, which has a value. -/
inductive ValueOption
  | manifest
  | type
  | output
  | lookup
  | runThreshold
  | lookupThresholds
  | trimPrefix
  deriving DecidableEq, Repr

/-- A flag, which has no value. -/
inductive Flag
  | lineComment
  | check
  | reportJson
  | verbose
  | quiet
  | help
  deriving DecidableEq, Repr

/-- The long names of options. -/
def valueOptions : List (String × ValueOption) := [
  ("manifest", .manifest), ("type", .type), ("output", .output), ("lookup", .lookup),
  ("run-threshold", .runThreshold), ("lookup-thresholds", .lookupThresholds),
  ("trim-prefix", .trimPrefix)]

/-- The long names of flags. -/
def longFlags : List (String × Flag) := [
  ("line-comment", .lineComment), ("check", .check), ("report-json", .reportJson),
  ("verbose", .verbose), ("quiet", .quiet), ("help", .help)]

/-- The letters of flags. -/
def shortFlags : List (Char × Flag) := [('v', .verbose), ('q', .quiet), ('h', .help)]

/-- Why arguments are not accepted. -/
inductive UsageError
  | unknown (argument : String)
  /-- A flag with a value. -/
  | needlessValue (name : String)
  | missingValue
  | repeated
  /-- An empty path. -/
  | emptyPath
  | badCount (e : CountError)
  | badThresholds (e : ThresholdsError)
  /-- Both more and fewer messages are asked for. -/
  | verboseAndQuiet
  | noManifest
  /-- The user asks for help instead of a run. -/
  | helpWanted
  deriving DecidableEq, Repr

/-- The error in words. -/
def UsageError.message : UsageError → String
  | unknown argument => "unexpected argument " ++ Text.quoted argument
  | needlessValue name => "--" ++ name ++ " takes no value"
  | missingValue => "a value is missing"
  | repeated => "an option is given more than once"
  | emptyPath => "a path is empty"
  | badCount e => e.message
  | badThresholds e => e.message
  | verboseAndQuiet => "--verbose cannot be used with --quiet"
  | noManifest => "--manifest is required"
  | helpWanted =>
    "usage: stringer --manifest FILE [--type NAMES] [--output FILE] [--lookup TEMPLATE] "
      ++ "[--run-threshold N] [--lookup-thresholds LO,HI] [--trim-prefix TEXT] [--line-comment] "
      ++ "[--check] [--report-json] [-v | -q]"

/-! ## One argument -/

/-- An argument taken apart. -/
inductive Argument
  /-- Two dashes alone: only plain texts follow. -/
  | separator
  | long (name : String) (value : Option String)
  | short (letters : List Char)
  | plain (text : String)
  deriving DecidableEq, Repr

/-- Takes an argument apart. A dash alone is a plain text. -/
def Argument.ofText (text : String) : Argument :=
  match text.toList with
  | ['-', '-'] => separator
  | '-' :: '-' :: rest =>
    match Text.cut? '=' rest with
    | some (name, value) => long (String.ofList name) (some (String.ofList value))
    | none => long (String.ofList rest) none
  | '-' :: c :: rest => short (c :: rest)
  | _ => plain text

/-! ## Settings -/

/-- The options and flags read so far. -/
structure Settings where
  manifest : Option String := none
  types : List String := []
  output : Option String := none
  lookup : Option String := none
  runThreshold : Option Nat := none
  lookupThresholds : Option (Nat × Nat) := none
  trimmed : Option String := none
  flags : List Flag := []
  deriving DecidableEq, Repr

/-- Accepts a value for an option that has none yet. -/
def once {α : Type} (present : Option α) (value : Except UsageError α) :
    Except UsageError (Option α) :=
  if present.isSome then .error .repeated else value.map some

/-- A path, which must not be empty. -/
def readPath (text : String) : Except UsageError String :=
  if text.isEmpty then .error .emptyPath else .ok text

namespace Settings

/-- Sets an option. -/
def set (s : Settings) (option : ValueOption) (value : String) : Except UsageError Settings := do
  match option with
  | .manifest => return { s with manifest := ← once s.manifest (readPath value) }
  | .type =>
    return { s with types := s.types ++ (Text.pieces ',' value.toList).map String.ofList }
  | .output => return { s with output := ← once s.output (readPath value) }
  | .lookup => return { s with lookup := ← once s.lookup (.ok value) }
  | .runThreshold =>
    let count := (readCount value.toList).mapError .badCount
    return { s with runThreshold := ← once s.runThreshold count }
  | .lookupThresholds =>
    let thresholds := (readThresholds value).mapError .badThresholds
    return { s with lookupThresholds := ← once s.lookupThresholds thresholds }
  | .trimPrefix => return { s with trimmed := ← once s.trimmed (.ok value) }

/-- Sets a flag. -/
def setFlag (s : Settings) (flag : Flag) : Except UsageError Settings :=
  if flag = .help then .error .helpWanted
  else if flag ∈ s.flags then .error .repeated
  else .ok { s with flags := flag :: s.flags }

/-- The invocation that the settings make up. -/
def invocation (s : Settings) : Except UsageError Invocation :=
  if .verbose ∈ s.flags ∧ .quiet ∈ s.flags then .error .verboseAndQuiet
  else
    match s.manifest with
    | none => .error .noManifest
    | some manifest =>
      .ok {
        manifest
        types := s.types
        output := s.output
        lookup := s.lookup.getD ""
        runThreshold := s.runThreshold
        lookupThresholds := s.lookupThresholds
        trimmed := s.trimmed.getD ""
        lineComment := .lineComment ∈ s.flags
        check := .check ∈ s.flags
        reportJson := .reportJson ∈ s.flags
        verbose := .verbose ∈ s.flags
        quiet := .quiet ∈ s.flags }

end Settings

/-! ## All arguments -/

/-- What is left to do for the arguments so far. -/
inductive Pending
  | nothing
  /-- An option waits for its value. -/
  | awaited (option : ValueOption)
  /-- A value has not been read yet. -/
  | unread (option : ValueOption) (value : String)
  deriving DecidableEq, Repr

/-- Does what is left to do. -/
def Pending.settle (pending : Pending) (s : Settings) : Except UsageError Settings :=
  match pending with
  | nothing => .ok s
  | awaited _ => .error .missingValue
  | unread option value => s.set option value

/-- Reads arguments. -/
def readArguments (s : Settings) (pending : Pending) : List String → Except UsageError Settings
  | [] => pending.settle s
  | argument :: rest =>
    match Argument.ofText argument with
    | .separator =>
      match rest with
      | [] => pending.settle s
      | extra :: _ => .error (.unknown extra)
    | .long name value =>
      match valueOptions.lookup name, longFlags.lookup name, value with
      | some option, _, some value => do
        readArguments (← (← pending.settle s).set option value) .nothing rest
      | some option, _, none => do
        readArguments (← pending.settle s) (.awaited option) rest
      | none, some _, some _ => .error (.needlessValue name)
      | none, some flag, none => do
        readArguments (← (← pending.settle s).setFlag flag) .nothing rest
      | none, none, _ => .error (.unknown argument)
    | .short letters => do
      let (s, pending) ← letters.foldlM (fun (s, pending) letter =>
        match shortFlags.lookup letter with
        | some flag => do return (← (← pending.settle s).setFlag flag, .nothing)
        | none => .error (.unknown argument)) (s, pending)
      readArguments s pending rest
    | .plain text =>
      match pending with
      | .awaited option => readArguments s (.unread option text) rest
      | _ => .error (.unknown argument)

/-- The invocation that arguments ask for. -/
def Invocation.ofArguments (arguments : List String) : Except UsageError Invocation := do
  (← readArguments {} .nothing arguments).invocation

end EnumNames.Command
