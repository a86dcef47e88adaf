import EnumNames.Constant
import EnumNames.Generated.File
import EnumNames.Json.Record
import EnumNames.Json.Tree

/-!
# Constants, options and findings as records

The spelling of constants, enumerations, options, diagnostics and reports in documents: a schema to
read a record by, and the tree that it is written as. Fields are written in the order of the schema.
-/

namespace EnumNames

open Json

/-! ## Constants and enumerations -/

/-- The record of a constant. -/
def Constant.schema : Schema Constant where
  title := "Value"
  blank := ⟨"", "", 0, false, ""⟩
  fields := [
    ⟨"name", .required, fun s => do
      return (← Reader.text "a string" s).map fun x c => { c with name := x }⟩,
    ⟨"reference", .required, fun s => do
      return (← Reader.text "a string" s).map fun x c => { c with reference := x }⟩,
    ⟨"bits", .required, fun s => do
      return (← Reader.natural "u64" s).map fun x c => { c with bits := .ofNat 64 x }⟩,
    ⟨"signed", .required, fun s => do
      return (← Reader.bool s).map fun x c => { c with signed := x }⟩,
    ⟨"canonical", .required, fun s => do
      return (← Reader.text "a string" s).map fun x c => { c with canonical := x }⟩]

/-- A constant as a document. -/
def Constant.tree (c : Constant) : Tree :=
  .record [("name", .text c.name), ("reference", .text c.reference),
    ("bits", .natural c.bits.toNat), ("signed", .bool c.signed), ("canonical", .text c.canonical)]

/-- The record of an enumeration. -/
def Enumeration.schema : Schema Enumeration where
  title := "EnumType"
  blank := ⟨"", "", []⟩
  fields := [
    ⟨"name", .required, fun s => do
      return (← Reader.text "a string" s).map fun x e => { e with name := x }⟩,
    ⟨"kind", .required, fun s => do
      return (← Reader.text "a string" s).map fun x e => { e with kind := x }⟩,
    ⟨"values", .required, fun s => do
      return (← Reader.list Constant.schema.read s).map fun x e => { e with constants := x }⟩]

/-- An enumeration as a document. -/
def Enumeration.tree (e : Enumeration) : Tree :=
  .record [("name", .text e.name), ("kind", .text e.kind),
    ("values", .list (e.constants.map Constant.tree))]

/-! ## Options -/

/-- The record of options. -/
def Options.schema : Schema Options where
  title := "GenerateOptions"
  blank := {}
  fields := [
    ⟨"lookup_template", .required, fun s => do
      return (← Reader.text "a string" s).map fun x o => { o with lookupTemplate := x }⟩,
    ⟨"run_threshold", .required, fun s => do
      return (← Reader.natural "usize" s).map fun x o => { o with runThreshold := x }⟩,
    ⟨"lookup_thresholds", .required, fun s => do
      return (← Reader.pair (Reader.natural "usize") (Reader.natural "usize") s).map
        fun x o => { o with lookupThresholds := x }⟩]

/-- Options as a document. -/
def Options.tree (o : Options) : Tree :=
  .record [("lookup_template", .text o.lookupTemplate), ("run_threshold", .natural o.runThreshold),
    ("lookup_thresholds",
      .list [.natural o.lookupThresholds.1, .natural o.lookupThresholds.2])]

/-! ## Diagnostics -/

/-- The record of a diagnostic. -/
def Diagnostic.schema : Schema Diagnostic where
  title := "Diagnostic"
  blank := ⟨.internalBug, .verify, .error, none, "", none⟩
  fields := [
    ⟨"code", .required, fun s => do
      return (← Reader.choice DiagnosticCode.all DiagnosticCode.name s).map
        fun x d => { d with code := x }⟩,
    ⟨"phase", .required, fun s => do
      return (← Reader.choice Phase.all Phase.name s).map fun x d => { d with phase := x }⟩,
    ⟨"severity", .required, fun s => do
      return (← Reader.choice Severity.all Severity.name s).map
        fun x d => { d with severity := x }⟩,
    ⟨"type_name", .optional, fun s => do
      return (← Reader.nullable (Reader.text "a string") s).map
        fun x d => { d with typeName := x }⟩,
    ⟨"message", .required, fun s => do
      return (← Reader.text "a string" s).map fun x d => { d with message := x }⟩,
    ⟨"help", .nullable, fun s => do
      return (← Reader.nullable (Reader.text "a string") s).map fun x d => { d with help := x }⟩]

/-- A diagnostic as a document. -/
def Diagnostic.tree (d : Diagnostic) : Tree :=
  .record ([("code", .text d.code.name), ("phase", .text d.phase.name),
      ("severity", .text d.severity.name)]
    ++ Tree.optionalField "type_name" (d.typeName.map .text)
    ++ [("message", .text d.message), ("help", (d.help.map .text).getD .null)])

/-! ## Reports -/

/-- The report of a type as a document; what is not known is left out. -/
def TypeReport.tree (r : TypeReport) : Tree :=
  .record ([("type_name", .text r.typeName), ("ok", .bool r.ok)]
    ++ Tree.optionalField "distinct_values" (r.size.map .natural)
    ++ Tree.optionalField "forward" (r.display.map fun shape => .text shape.name)
    ++ Tree.optionalField "lookup" (r.lookup.map fun shape => .text shape.name))

end EnumNames
