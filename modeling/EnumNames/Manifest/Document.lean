import EnumNames.Json.Record
import EnumNames.Json.Tree
import EnumNames.Manifest.Basic
import EnumNames.Text.Blank

/-!
# Manifests as documents

A manifest is read from a document in one version of the schema, and written back field by field;
texts that a constant does not carry are left out.

* `Manifest.read` reads a document, `Manifest.tree` writes one.
-/

namespace EnumNames

open Json

/-- The version of the schema that can be read. -/
def manifestSchemaVersion : String :=
  "stringer.manifest@0.1.0"

/-- Why a document is no manifest. -/
inductive ManifestError
  | unreadable (e : Json.Error)
  /-- The manifest is in another version of the schema. -/
  | otherVersion (version : String)
  deriving DecidableEq, Repr

/-- The error in words. -/
def ManifestError.message : ManifestError → String
  | unreadable e => "parse manifest JSON: " ++ e.message
  | otherVersion version =>
    "manifest schema_version mismatch: expected " ++ manifestSchemaVersion ++ " got "
      ++ Text.quoted version

/-! ## Reading -/

/-- Reads a text that may be null. -/
def nullableText : Reader (Option String) :=
  Reader.nullable (Reader.text "a string")

/-- The record of a constant. -/
def DeclaredConstant.schema : Schema DeclaredConstant where
  title := "ManifestValue"
  blank := { name := "", number := .integer 0 }
  fields := [
    ⟨"name", .required, fun s => do
      return (← Reader.text "a string" s).map fun x c => { c with name := x }⟩,
    ⟨"value", .required, fun s => do
      return (← Reader.number "a JSON number" s).map fun x c => { c with number := x }⟩,
    ⟨"reference", .optional, fun s => do
      return (← nullableText s).map fun x c => { c with reference := x }⟩,
    ⟨"display", .optional, fun s => do
      return (← nullableText s).map fun x c => { c with display := x }⟩,
    ⟨"comment", .optional, fun s => do
      return (← nullableText s).map fun x c => { c with comment := x }⟩,
    ⟨"canonical", .optional, fun s => do
      return (← nullableText s).map fun x c => { c with canonical := x }⟩]

/-- The record of a type. -/
def DeclaredType.schema : Schema DeclaredType where
  title := "ManifestType"
  blank := ⟨"", "", []⟩
  fields := [
    ⟨"name", .required, fun s => do
      return (← Reader.text "a string" s).map fun x t => { t with name := x }⟩,
    ⟨"kind", .required, fun s => do
      return (← Reader.text "a string" s).map fun x t => { t with kind := x }⟩,
    ⟨"values", .optional, fun s => do
      return (← Reader.list DeclaredConstant.schema.read s).map
        fun x t => { t with constants := x }⟩]

namespace Manifest

/-- The record of a manifest. -/
def schema : Schema Manifest where
  title := "Manifest"
  blank := ⟨"", []⟩
  fields := [
    ⟨"schema_version", .required, fun s => do
      return (← Reader.text "a string" s).map fun x m => { m with schemaVersion := x }⟩,
    ⟨"types", .required, fun s => do
      return (← Reader.list DeclaredType.schema.read s).map fun x m => { m with types := x }⟩]

/-- Accepts a manifest in the version that can be read; blanks around the version do not count. -/
def checkVersion (m : Manifest) : Except ManifestError Manifest :=
  if Text.trim m.schemaVersion = manifestSchemaVersion then .ok m
  else .error (.otherVersion m.schemaVersion)

/-- Reads a manifest from the bytes of a document. -/
def read (bytes : List UInt8) : Except ManifestError Manifest :=
  match readDocument schema.read bytes with
  | .ok m => m.checkVersion
  | .error e => .error (.unreadable e)

end Manifest

/-! ## Writing -/

/-- A constant as a document. -/
def DeclaredConstant.tree (c : DeclaredConstant) : Tree :=
  .record ([("name", .text c.name), ("value", .number c.number.text)]
    ++ Tree.optionalField "reference" (c.reference.map .text)
    ++ Tree.optionalField "display" (c.display.map .text)
    ++ Tree.optionalField "comment" (c.comment.map .text)
    ++ Tree.optionalField "canonical" (c.canonical.map .text))

/-- A type as a document. -/
def DeclaredType.tree (t : DeclaredType) : Tree :=
  .record [("name", .text t.name), ("kind", .text t.kind),
    ("values", .list (t.constants.map DeclaredConstant.tree))]

/-- A manifest as a document. -/
def Manifest.tree (m : Manifest) : Tree :=
  .record [("schema_version", .text m.schemaVersion),
    ("types", .list (m.types.map DeclaredType.tree))]

end EnumNames
