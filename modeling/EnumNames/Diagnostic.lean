/-!
# Diagnostics

A diagnostic is a coded finding about one type or about the whole run. The phase, the stock message
and the advice of a code are fixed; `Diagnostic.error` and `Diagnostic.warning` fill them in, and
`catalog` lists all codes as a table.
-/

namespace EnumNames

/-- How grave a finding is: an error makes the run fail, a warning does not. -/
inductive Severity
  | error
  | warning
  deriving DecidableEq, Repr, Inhabited

/-- The part of the work that a finding belongs to. -/
inductive Phase
  | manifest
  | normalize
  | emit
  | verify
  deriving DecidableEq, Repr, Inhabited

/-- What can be found. -/
inductive DiagnosticCode
  | emptyValueSet
  | unsupportedKind
  | valueOutOfRange
  | unknownType
  | duplicateType
  | internalBug
  deriving DecidableEq, Repr, Inhabited

namespace Severity

/-- Every severity, in the order of their declaration. -/
def all : List Severity :=
  [.error, .warning]

/-- The word for a severity. -/
def name : Severity → String
  | .error => "Error"
  | .warning => "Warning"

end Severity

namespace Phase

/-- Every phase, in the order of their declaration. -/
def all : List Phase :=
  [.manifest, .normalize, .emit, .verify]

/-- The word for a phase. -/
def name : Phase → String
  | .manifest => "Manifest"
  | .normalize => "Normalize"
  | .emit => "Emit"
  | .verify => "Verify"

end Phase

namespace DiagnosticCode

/-- Every code, in increasing order of their numbers. -/
def all : List DiagnosticCode :=
  [.emptyValueSet, .unsupportedKind, .valueOutOfRange, .unknownType, .duplicateType, .internalBug]

/-- The short form, with a number. -/
def number : DiagnosticCode → String
  | .emptyValueSet => "STR0001"
  | .unsupportedKind => "STR0002"
  | .valueOutOfRange => "STR0003"
  | .unknownType => "STR0004"
  | .duplicateType => "STR0005"
  | .internalBug => "STR0901"

/-- The long form, as reports spell it. -/
def name : DiagnosticCode → String
  | .emptyValueSet => "STR0001EmptyValueSet"
  | .unsupportedKind => "STR0002UnsupportedKind"
  | .valueOutOfRange => "STR0003ValueOutOfRange"
  | .unknownType => "STR0004UnknownType"
  | .duplicateType => "STR0005DuplicateType"
  | .internalBug => "STR0901InternalBug"

/-- What a code means, in general words. -/
def summary : DiagnosticCode → String
  | .emptyValueSet => "type has no constant values"
  | .unsupportedKind => "unsupported underlying kind"
  | .valueOutOfRange => "constant value does not fit its kind"
  | .unknownType => "requested type not found in manifest"
  | .duplicateType => "type requested more than once"
  | .internalBug => "internal stringer bug: generated invalid Rust"

/-- Advice to the user, for the codes that have some. -/
def help : DiagnosticCode → Option String
  | .unsupportedKind =>
    some "Only i8..i64, isize, u8..u64 and usize newtypes can be stringified."
  | .unknownType => some "Check the --type list against the manifest's type names."
  | .duplicateType => some "Only the first occurrence is generated; drop the repeated name."
  | .internalBug => some "The unverified output was written anyway; compile it to see the error."
  | .emptyValueSet | .valueOutOfRange => none

/-- The phase in which a code arises. -/
def phase : DiagnosticCode → Phase
  | .emptyValueSet | .unsupportedKind => .normalize
  | .valueOutOfRange | .unknownType => .manifest
  | .duplicateType => .emit
  | .internalBug => .verify

end DiagnosticCode

/-- A finding. -/
structure Diagnostic where
  code : DiagnosticCode
  phase : Phase
  severity : Severity
  /-- The type that the finding belongs to, if it belongs to one. -/
  typeName : Option String
  message : String
  help : Option String
  deriving DecidableEq, Repr, Inhabited

namespace Diagnostic

/-- An error with the phase and the advice of its code. -/
def error (code : DiagnosticCode) (message : String) (typeName : Option String) : Diagnostic :=
  ⟨code, code.phase, .error, typeName, message, code.help⟩

/-- A warning with the phase and the advice of its code. -/
def warning (code : DiagnosticCode) (message : String) (typeName : Option String) : Diagnostic :=
  ⟨code, code.phase, .warning, typeName, message, code.help⟩

/-- The finding in one line, followed by a line of advice if there is any. -/
def text (d : Diagnostic) : String :=
  d.code.number ++ " " ++ d.phase.name ++ " " ++ d.severity.name ++ ": " ++ d.message
    ++ match d.help with
      | some help => "\n  help: " ++ help
      | none => ""

/-- The row of a code in the catalog. -/
def catalogRow (code : DiagnosticCode) : String :=
  "| " ++ code.number ++ " | " ++ code.phase.name ++ " | " ++ code.summary ++ " | "
    ++ code.help.getD "" ++ " |\n"

/-- All codes as a table in Markdown. -/
def catalog : String :=
  "# stringer diagnostics catalog\n\n"
    ++ "This document is generated from `crates/stringer-core/src/diagnostics.rs`.\n\n"
    ++ "| Code | Phase | Message | Help |\n"
    ++ "| ---- | ----- | ------- | ---- |\n"
    ++ String.join (DiagnosticCode.all.map catalogRow)

end Diagnostic

end EnumNames
