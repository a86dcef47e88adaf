import EnumNames.Generated.Event
import EnumNames.Generated.Header
import EnumNames.Generated.Type
import EnumNames.Target.Check

/-!
# Generated files

A file is its header followed by the texts of its types, an empty line before each. What becomes of
each type is an `Outcome`: its code, an error, or the notice that its name occurred before; the
text, the reports, the diagnostics and the events of a file are all read off the outcomes.

* `GeneratedFile.generate` generates all types once the options are valid for them.
* `GeneratedFile.record` adds an error that arose before.
-/

namespace EnumNames

/-- What is reported about one type. The shapes and the size are known if code was generated. -/
structure TypeReport where
  typeName : String
  ok : Bool
  size : Option Nat
  display : Option DisplayShape
  lookup : Option LookupShape
  deriving DecidableEq, Repr

namespace TypeReport

/-- The report of a type with code. -/
def ofGenerated (g : GeneratedType) : TypeReport :=
  ⟨g.typeName, true, some g.size, some g.display.shape, g.lookup.map (·.plan.shape)⟩

/-- The report of a type without code. -/
def failed (typeName : String) : TypeReport :=
  ⟨typeName, false, none, none, none⟩

end TypeReport

/-! ## Outcomes -/

/-- What becomes of one type. -/
inductive Outcome
  | generated (g : GeneratedType)
  | failed (e : InputError)
  /-- A type of the same name came before. -/
  | repeated (typeName : String)
  deriving DecidableEq, Repr

namespace Outcome

/-- The outcome for a type whose name occurs for the first time. -/
def ofType (o : Options) (e : Enumeration) : Outcome :=
  match e.generate o with
  | .ok g => generated g
  | .error e => failed e

/-- What the type adds to the text of the file. -/
def text : Outcome → String
  | generated g => "\n" ++ g.text
  | failed _ | repeated _ => ""

/-- What the type adds to the reports. -/
def reports : Outcome → List TypeReport
  | generated g => [.ofGenerated g]
  | failed e => e.typeName?.toList.map .failed
  | repeated _ => []

/-- What the type adds to the diagnostics. -/
def diagnostics : Outcome → List Diagnostic
  | generated _ => []
  | failed e => [e.diagnostic]
  | repeated typeName =>
    [.warning .duplicateType (repeatedTypeMessage typeName) (some typeName)]

/-- What the type adds to the events. -/
def events : Outcome → List Event
  | generated g =>
    .displayShape g.typeName g.size g.display.shape
      :: g.lookup.toList.map fun lookup =>
        .lookupShape g.typeName lookup.functionName lookup.plan.shape
  | failed e => [.refused e]
  | repeated typeName => [.repeatedType typeName]

end Outcome

/-- The outcomes of types in order, `seen` being the names that occurred before. -/
def outcomesFrom (o : Options) (seen : List String) : List Enumeration → List Outcome
  | [] => []
  | e :: rest =>
    (if e.name ∈ seen then .repeated e.name else .ofType o e)
      :: outcomesFrom o (e.name :: seen) rest

/-- The outcomes of types in order. -/
def outcomes (o : Options) (types : List Enumeration) : List Outcome :=
  outcomesFrom o [] types

/-! ## Files -/

/-- A file with all that is known about it. -/
structure GeneratedFile where
  source : String
  types : List TypeReport
  /-- Whether the text passed the syntax check; it is kept in any case. -/
  verified : Bool
  diagnostics : List Diagnostic
  deriving DecidableEq, Repr

/-- The message about a file that does not pass the syntax check, up to the colon. The words of the
parser's own error, which go on from there, are left out: the check tells whether the parser accepts a
text, not why it refuses one. -/
def invalidFileMessage : String :=
  "invalid Rust generated: "

/-- The finding about a text that does not pass the syntax check. -/
def syntaxFinding? (source : String) : Option Diagnostic :=
  if Target.isSourceFile source then none
  else some (.error .internalBug invalidFileMessage none)

namespace GeneratedFile

/-- The file made of outcomes. -/
def ofOutcomes (header : Header) (outcomes : List Outcome) : GeneratedFile :=
  let source := header.text ++ String.join (outcomes.map Outcome.text)
  let finding := syntaxFinding? source
  ⟨source, outcomes.flatMap Outcome.reports, finding.isNone,
    outcomes.flatMap Outcome.diagnostics ++ finding.toList⟩

/-- Generates the file of some types. The options are checked first, since they are for all. -/
def generate (o : Options) (header : Header) (types : List Enumeration) :
    Except OptionsError GeneratedFile := do
  o.validate
  types.forM fun e => o.validateType e.name
  return ofOutcomes header (outcomes o types)

/-- The events while a file is generated. -/
def events (o : Options) (types : List Enumeration) (file : GeneratedFile) : List Event :=
  (outcomes o types).flatMap Outcome.events
    ++ if file.verified then [] else [.invalidFile invalidFileMessage]

/-- Whether every type has code, the text passed the check, and no finding is an error. -/
def ok (file : GeneratedFile) : Bool :=
  file.verified && file.types.all (·.ok) && !file.diagnostics.any (·.severity == .error)

/-- The number of types with code. -/
def generatedCount (file : GeneratedFile) : Nat :=
  file.types.countP (·.ok)

/-- Adds an error that arose before the file was generated. -/
def record (file : GeneratedFile) (e : InputError) : GeneratedFile :=
  { file with
    types := file.types ++ e.typeName?.toList.map .failed
    diagnostics := file.diagnostics ++ [e.diagnostic] }

end GeneratedFile

end EnumNames
