import EnumNames.Diagnostic
import EnumNames.Kind
import EnumNames.Text.Quoted

/-!
# Errors

* `InputError`: one type is malformed, or a requested type is missing; other types are unaffected.
* `OptionsError`: the options are refused, and nothing is generated.

The causes are data; `InputError.message` and `OptionsError.message` give the wording.
-/

namespace EnumNames

open Text (quoted)

/-- What can be wrong with the types asked for. -/
inductive InputError
  /-- A type without constants. -/
  | noConstants (typeName : String)
  /-- A type whose kind is no integer kind. -/
  | unsupportedKind (typeName : String) (kind : String)
  /-- A constant whose number, as it was written, is no integer of the kind. -/
  | valueOutOfRange (typeName : String) (constant : String) (number : String) (kind : Kind)
  /-- Requested names that the manifest does not hold. -/
  | unknownTypes (names : List String)
  deriving DecidableEq, Repr

namespace InputError

/-- The code of the diagnostic for an error. -/
def code : InputError → DiagnosticCode
  | noConstants _ => .emptyValueSet
  | unsupportedKind _ _ => .unsupportedKind
  | valueOutOfRange _ _ _ _ => .valueOutOfRange
  | unknownTypes _ => .unknownType

/-- The type at fault, if it is a single one. -/
def typeName? : InputError → Option String
  | noConstants typeName | unsupportedKind typeName _ | valueOutOfRange typeName _ _ _ =>
    some typeName
  | unknownTypes _ => none

/-- The error in words. -/
def message : InputError → String
  | noConstants typeName => "type " ++ typeName ++ ": no constant values"
  | unsupportedKind typeName kind =>
    "type " ++ typeName ++ ": can't handle non-integer constant kind " ++ quoted kind
  | valueOutOfRange typeName constant number kind =>
    "type " ++ typeName ++ ": value " ++ number ++ " of " ++ constant ++ " does not fit "
      ++ kind.name
  | unknownTypes names => "no values defined for types: " ++ String.intercalate "," names

/-- The error as a diagnostic. -/
def diagnostic (e : InputError) : Diagnostic :=
  .error e.code e.message e.typeName?

end InputError

/-- What can be wrong with the options. -/
inductive OptionsError
  /-- The lookup template has no place for the type name. -/
  | missingPlaceholder (template : String)
  /-- The lookup template yields no identifier for a type. -/
  | invalidLookupName (template typeName name : String)
  /-- The greatest number of runs is zero. -/
  | zeroRunThreshold
  /-- The lookup thresholds decrease. -/
  | unorderedLookupThresholds (low high : Nat)
  deriving DecidableEq, Repr

namespace OptionsError

/-- The error in words. -/
def message : OptionsError → String
  | missingPlaceholder template =>
    "lookup template " ++ quoted template ++ " has no \"\x7b\x7d\" placeholder"
  | invalidLookupName template typeName name =>
    "lookup template " ++ quoted template ++ " yields non-identifier " ++ quoted name ++ " for "
      ++ typeName
  | zeroRunThreshold => "run threshold must be at least 1"
  | unorderedLookupThresholds low high =>
    "lookup thresholds out of order: " ++ toString low ++ " > " ++ toString high

end OptionsError

end EnumNames
