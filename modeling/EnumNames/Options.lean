import EnumNames.Error
import EnumNames.Target.Scan

/-!
# Options of the generator

The template gives the name of the lookup function of a type: the type name stands in for the first
placeholder `{}`. An empty template asks for no lookup function.

* `Options.validate` judges the options on their own, `Options.validateType` together with a type.
-/

namespace EnumNames

/-- What a user may choose about the emitted code. -/
structure Options where
  /-- Name of the lookup function, with a placeholder for the type name. -/
  lookupTemplate : String := ""
  /-- The greatest number of runs that are tested one by one. -/
  runThreshold : Nat := 10
  /-- The greatest set sizes for a switch on hashes and for a search by halving. -/
  lookupThresholds : Nat × Nat := (500, 5000)
  deriving DecidableEq, Repr

/-- The characters before and after the first placeholder. -/
def splitPlaceholder? : List Char → Option (List Char × List Char)
  | '\x7b' :: '\x7d' :: after => some ([], after)
  | c :: rest => (splitPlaceholder? rest).map fun (before, after) => (c :: before, after)
  | [] => none

/-- A template with a name in place of its first placeholder; without one it stays as it is. -/
def fillTemplate (template name : String) : String :=
  match splitPlaceholder? template.toList with
  | some (before, after) => String.ofList before ++ name ++ String.ofList after
  | none => template

namespace Options

/-- Whether lookup functions are wanted. -/
def hasLookup (o : Options) : Bool :=
  !o.lookupTemplate.isEmpty

/-- The name of the lookup function of a type. -/
def lookupName? (o : Options) (typeName : String) : Option String :=
  if o.hasLookup then some (fillTemplate o.lookupTemplate typeName) else none

/-- Checks all that does not depend on a type. -/
def validate (o : Options) : Except OptionsError Unit :=
  if o.runThreshold = 0 then .error .zeroRunThreshold
  else if o.lookupThresholds.2 < o.lookupThresholds.1 then
    .error (.unorderedLookupThresholds o.lookupThresholds.1 o.lookupThresholds.2)
  else if o.hasLookup ∧ (splitPlaceholder? o.lookupTemplate.toList).isNone then
    .error (.missingPlaceholder o.lookupTemplate)
  else .ok ()

/-- Checks that the template yields an identifier for a type. -/
def validateType (o : Options) (typeName : String) : Except OptionsError Unit :=
  match o.lookupName? typeName with
  | none => .ok ()
  | some name =>
    if Target.isIdentifier name then .ok ()
    else .error (.invalidLookupName o.lookupTemplate typeName name)

end Options

end EnumNames
