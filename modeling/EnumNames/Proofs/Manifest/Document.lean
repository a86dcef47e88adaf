import EnumNames.Manifest.Document
import EnumNames.Proofs.Json.Record

/-!
# Reading a written manifest

A manifest that was written is read as it was: its texts may hold any characters, texts that a
constant does not carry are absent again, and its numbers are integers of 64 bits, with or without a
sign.

* `DeclaredConstant.readsBack`, `DeclaredType.readsBack`: constants and types in the manifest.
* `Manifest.read_render`: the whole manifest.
-/

namespace EnumNames

open Json

/-- An integer that fits 64 bits, with or without a sign. -/
def Json.Number.IsInteger64 (x : Number) : Prop :=
  ∃ n : Int, x = .integer n ∧ -0x8000000000000000 ≤ n ∧ n < 0x10000000000000000

/-! ## Constants -/

section OptionalEntry

variable {α : Type} (name : String) (value : Option String) (put : Option String → α → α)

/-- A text that a record may carry, as a field. -/
def optionalEntry : List (Entry α) :=
  value.toList.map fun x => ⟨name, .text x, put (some x)⟩

/-- An optional text is written if it is there. -/
theorem map_written_optionalEntry :
    (optionalEntry name value put).map Entry.written
      = Tree.optionalField name (value.map .text) := by
  cases value <;> rfl

theorem map_name_optionalEntry :
    ((optionalEntry name value put).map Entry.name).Sublist [name] := by
  cases value with
  | none => exact List.nil_sublist _
  | some x => exact List.Sublist.refl _

/-- A field that takes a text or `null` reads an optional text back. -/
theorem isRead_optionalEntry {schema : Schema α} {presence : Presence}
    (h : schema.fields.find? (·.name == name)
      = some ⟨name, presence, fun s => do return (← nullableText s).map put⟩) :
    ∀ e ∈ optionalEntry name value put, e.IsRead schema := by
  intro e he
  obtain ⟨x, -, rfl⟩ := List.mem_map.1 he
  exact ⟨_, h, (readsBack_nullable (readsBack_text "a string" x) (isOpened_text x)).map put⟩

end OptionalEntry

namespace DeclaredConstant

variable (c : DeclaredConstant)

/-- The fields of a constant. -/
def entries : List (Entry DeclaredConstant) :=
  [⟨"name", .text c.name, fun k => { k with name := c.name }⟩,
    ⟨"value", .number c.number.text, fun k => { k with number := c.number }⟩]
    ++ optionalEntry "reference" c.reference (fun x k => { k with reference := x })
    ++ optionalEntry "display" c.display (fun x k => { k with display := x })
    ++ optionalEntry "comment" c.comment (fun x k => { k with comment := x })
    ++ optionalEntry "canonical" c.canonical (fun x k => { k with canonical := x })

theorem tree_eq : c.tree = .record (c.entries.map Entry.written) := by
  simp only [entries, List.map_append, map_written_optionalEntry]
  rfl

/-- The fields of a constant make up the constant. -/
theorem applyAll_entries : Entry.applyAll c.entries schema.blank = c := by
  obtain ⟨name, number, _ | reference, _ | display, _ | comment, _ | canonical⟩ := c <;> rfl

/-- The names of the fields are those of the schema, less those that are left out. -/
theorem map_name_entries : (c.entries.map Entry.name).Sublist (schema.fields.map Field.name) := by
  simp only [entries, List.map_append]
  exact (((List.Sublist.refl ["name", "value"]).append
    (map_name_optionalEntry _ _ _)).append (map_name_optionalEntry _ _ _)).append
    (map_name_optionalEntry _ _ _) |>.append (map_name_optionalEntry _ _ _)

/-- All fields of a constant are known, and none occurs twice. -/
theorem accepts_entries (h : c.number.IsInteger64) : schema.Accepts [] c.entries := by
  -- the fields that may be left out are those that need not be there
  have hrequired : ∀ field ∈ schema.fields, field.presence = .required →
      field.name ∈ ["name", "value"] := by
    decide
  refine ⟨?_, ?_, fun field hfield hpresence => ?_⟩
  · simp only [entries, List.forall_mem_append, List.forall_mem_cons]
    obtain ⟨n, hn, hlow, hhigh⟩ := h
    have hnumber : ReadsBack (Reader.number "a JSON number") (.number c.number.text) c.number := by
      rw [hn]
      exact readsBack_number _ hlow hhigh
    exact ⟨⟨⟨⟨⟨⟨_, rfl, (readsBack_text _ c.name).map _⟩, ⟨_, rfl, hnumber.map _⟩, nofun⟩,
      isRead_optionalEntry _ _ _ rfl⟩, isRead_optionalEntry _ _ _ rfl⟩,
      isRead_optionalEntry _ _ _ rfl⟩, isRead_optionalEntry _ _ _ rfl⟩
  · rw [List.append_nil]
    exact c.map_name_entries.nodup (by decide)
  · rw [List.append_nil]
    simp only [entries, List.map_append, List.mem_append]
    exact .inl (.inl (.inl (.inl (hrequired field hfield hpresence))))

/-- A constant with an integer of 64 bits is read back. -/
theorem readsBack (h : c.number.IsInteger64) : ReadsBack schema.read c.tree c := by
  have hrecord := readsBack_record (c.accepts_entries h)
  rwa [← tree_eq, applyAll_entries] at hrecord

end DeclaredConstant

/-! ## Types -/

namespace DeclaredType

variable (t : DeclaredType)

/-- The fields of a type. -/
def entries : List (Entry DeclaredType) :=
  [⟨"name", .text t.name, fun u => { u with name := t.name }⟩,
    ⟨"kind", .text t.kind, fun u => { u with kind := t.kind }⟩,
    ⟨"values", .list (t.constants.map DeclaredConstant.tree),
      fun u => { u with constants := t.constants }⟩]

theorem map_name_entries : t.entries.map Entry.name = ["name", "kind", "values"] := rfl

theorem accepts_entries (h : ∀ c ∈ t.constants, c.number.IsInteger64) :
    schema.Accepts [] t.entries := by
  refine ⟨?_, by rw [map_name_entries]; decide, by rw [map_name_entries]; decide⟩
  have hconstants : ReadsBack (Reader.list DeclaredConstant.schema.read)
      (.list (t.constants.map DeclaredConstant.tree)) t.constants :=
    readsBack_list fun c hc => ⟨c.readsBack (h c hc), isOpened_record _⟩
  simp only [entries, List.forall_mem_cons]
  exact ⟨⟨_, rfl, (readsBack_text _ t.name).map _⟩, ⟨_, rfl, (readsBack_text _ t.kind).map _⟩,
    ⟨_, rfl, hconstants.map _⟩, nofun⟩

/-- A type is read back if its constants are. -/
theorem readsBack (h : ∀ c ∈ t.constants, c.number.IsInteger64) : ReadsBack schema.read t.tree t :=
  readsBack_record (t.accepts_entries h)

end DeclaredType

/-! ## Manifests -/

namespace Manifest

variable (m : Manifest)

/-- The fields of a manifest. -/
def entries : List (Entry Manifest) :=
  [⟨"schema_version", .text m.schemaVersion, fun n => { n with schemaVersion := m.schemaVersion }⟩,
    ⟨"types", .list (m.types.map DeclaredType.tree), fun n => { n with types := m.types }⟩]

theorem map_name_entries : m.entries.map Entry.name = ["schema_version", "types"] := rfl

/-- A manifest is written field by field. -/
theorem tree_eq : m.tree = .record (m.entries.map Entry.written) := rfl

theorem applyAll_entries : Entry.applyAll m.entries schema.blank = m := rfl

/-- All fields of a manifest are known, and none occurs twice. -/
theorem accepts_entries (h : ∀ t ∈ m.types, ∀ c ∈ t.constants, c.number.IsInteger64) :
    schema.Accepts [] m.entries := by
  refine ⟨?_, by rw [map_name_entries]; decide, by rw [map_name_entries]; decide⟩
  have htypes : ReadsBack (Reader.list DeclaredType.schema.read)
      (.list (m.types.map DeclaredType.tree)) m.types :=
    readsBack_list fun t ht => ⟨t.readsBack (h t ht), isOpened_record _⟩
  simp only [entries, List.forall_mem_cons]
  exact ⟨⟨_, rfl, (readsBack_text _ m.schemaVersion).map _⟩, ⟨_, rfl, htypes.map _⟩, nofun⟩

/-- A written manifest is read as it was, if it is in the version that can be read; otherwise it is
refused with the version that it has. -/
theorem read_render (h : ∀ t ∈ m.types, ∀ c ∈ t.constants, c.number.IsInteger64) :
    Manifest.read m.tree.render.toUTF8.toList
      = if Text.trim m.schemaVersion = manifestSchemaVersion then .ok m
        else .error (.otherVersion m.schemaVersion) := by
  have hread := readDocument_record (m.accepts_entries h)
  rw [← tree_eq, applyAll_entries] at hread
  rw [Manifest.read, hread]
  rfl

/-- A manifest with the least and the greatest number, with characters that are escaped or have
several bytes, and with all texts or none. Blanks stand around its version. -/
def edgeManifest : Manifest :=
  ⟨"\n" ++ manifestSchemaVersion ++ "\u2003",
    [⟨"Gauge\u0000\"\\", "i128", [{ name := "Low\x7f", number := .integer (-0x8000000000000000) },
      ⟨"High😀", .integer 0xffffffffffffffff, some "\u0001é", some "", some "/\t\r",
        some "\x08\x0c"⟩]⟩,
      ⟨"", "", []⟩]⟩

/-- A manifest with numbers at the ends of their range, and one of another version. -/
theorem read_render_edgeManifest :
    Manifest.read edgeManifest.tree.render.toUTF8.toList = .ok edgeManifest
      ∧ Manifest.read (Manifest.tree ⟨" 2\n", edgeManifest.types⟩).render.toUTF8.toList
        = .error (.otherVersion " 2\n") := by
  have hnumbers : ∀ t ∈ edgeManifest.types, ∀ c ∈ t.constants, c.number.IsInteger64 := by
    intro t ht c hc
    simp only [edgeManifest, List.mem_cons, List.not_mem_nil, or_false] at ht
    rcases ht with rfl | rfl
    · simp only [List.mem_cons, List.not_mem_nil, or_false] at hc
      rcases hc with rfl | rfl
      · exact ⟨_, rfl, by decide, by decide⟩
      · exact ⟨_, rfl, by decide, by decide⟩
    · exact nomatch hc
  refine ⟨?_, ?_⟩
  · rw [read_render _ hnumbers]
    exact if_pos (by decide +kernel)
  · rw [read_render ⟨" 2\n", edgeManifest.types⟩ hnumbers]
    exact if_neg (by decide +kernel)

end Manifest

end EnumNames
