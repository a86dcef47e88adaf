import EnumNames.Json.Value

/-!
# Records

A record is read by a schema: its fields in order, each with a reader of its value. The document may
spell a record with names, in any order, or as a list of the values in the order of the fields.

* With names, a field may occur once; values of other names are passed. Missing fields are noticed
  at the end, in the order of the fields.
* As a list, only fields with a default may be missing, at the end.
-/

namespace EnumNames.Json

/-- Whether a field may be left out. -/
inductive Presence
  | required
  /-- A field that counts as null where it is not named. -/
  | nullable
  /-- A field with a default. -/
  | optional
  deriving DecidableEq, Repr

/-- A field of a record. -/
structure Field (α : Type) where
  name : String
  presence : Presence
  /-- Reads the value of the field; the result puts it into the record. -/
  read : Reader (α → α)

/-- The form of a record. -/
structure Schema (α : Type) where
  /-- The name of the record in error messages. -/
  title : String
  /-- The record before any field is read. -/
  blank : α
  fields : List (Field α)

namespace Schema

variable {α : Type}

/-- The record in words. -/
def expected (schema : Schema α) : String :=
  "struct " ++ schema.title

/-! ## Records with names -/

/-- Moves to the next key and reads it; there is none if the closing bracket comes first. -/
def nextKey (isFirst : Bool) (s : List UInt8) : Except Error (Option (Taken String s)) :=
  match peek? s with
  | none => ended .record
  | some p =>
    if p.char = '\x7d' then .ok none
    else if isFirst then
      if p.char = '"' then
        (readText p.rest).map fun t => some (p.andThen t)
      else breach .keyIsNoText
    else if p.char = ',' then
      match peek? p.rest with
      | none => ended .value
      | some q =>
        if q.char = '"' then
          (readText q.rest).map fun t => some (p.andThen (q.andThen t))
        else if q.char = '\x7d' then breach .trailingComma
        else breach .keyIsNoText
    else breach .noRecordSeparator

/-- Reads the closing bracket of a record that has no further keys. -/
def recordEnd (record : α) : Reader α := fun s =>
  match peek? s with
  | none => ended .record
  | some p =>
    if p.char = '\x7d' then .ok (p.only record)
    else if p.char = ',' then breach .trailingComma
    else breach .trailingCharacters

/-- Reads the value of a key; a value without a field is passed. -/
def readValue (field : Option (Field α)) : Reader (α → α) := fun s => do
  let colon ← passColon s
  match field with
  | some field => return colon.andThen (← field.read colon.rest)
  | none => return colon.andThen ((← skipValue colon.rest).map fun _ => id)

/-- The first field that has to be there and is not. -/
def missing? (schema : Schema α) (seen : List String) : Option (Field α) :=
  schema.fields.find? fun field => field.presence == .required && !seen.contains field.name

/-- Reads the keys of a record with their values, and its closing bracket. -/
def readNamed (schema : Schema α) (record : α) (seen : List String) (isFirst : Bool) : Reader α :=
  fun s =>
    match nextKey isFirst s with
    | .error e => .error e
    | .ok none =>
      match schema.missing? seen with
      | some field => .error (.missingField field.name)
      | none => recordEnd record s
    | .ok (some key) =>
      if seen.contains key.value then .error (.duplicateField key.value)
      else
        let field := schema.fields.find? (·.name == key.value)
        match readValue field key.rest with
        | .error e => .error e
        | .ok t =>
          match readNamed schema (t.value record)
              ((field.map (·.name)).toList ++ seen) false t.rest with
          | .error e => .error e
          | .ok u => .ok (key.andThen (t.andThen u))
termination_by s => s.length
decreasing_by have := key.shorter; have := t.shorter; omega

/-! ## Records as lists -/

/-- Reads the values of fields in order, `count` of them having come before. -/
def readRow (expected : String) : List (Field α) → α → Nat → Bool → Reader α
  | [], record, _, _, s => Reader.listEnd record s
  | field :: fields, record, count, isFirst, s => do
    match ← Reader.nextElement isFirst s with
    | none =>
      if field.presence = .optional then readRow expected fields record (count + 1) isFirst s
      else .error (.invalidLength count expected)
    | some next =>
      let t ← field.read next.rest
      let u ← readRow expected fields (t.value record) (count + 1) false t.rest
      return next.andThen (t.andThen u)

/-- The record as a list in words. -/
def expectedRow (schema : Schema α) : String :=
  let count := schema.fields.length
  schema.expected ++ " with " ++ toString count ++ if count = 1 then " element" else " elements"

/-! ## Both forms -/

/-- Reads a record. -/
def read (schema : Schema α) : Reader α := fun s =>
  match peek? s with
  | none => ended .value
  | some p =>
    if p.char = '[' then
      (readRow schema.expectedRow schema.fields schema.blank 0 true p.rest).map p.andThen
    else if p.char = '\x7b' then
      (readNamed schema schema.blank [] true p.rest).map p.andThen
    else refuse schema.expected s

end Schema

/-- Reads a whole document: nothing but blanks may follow the value. -/
def readDocument {α : Type} (read : Reader α) (s : List UInt8) : Except Error α := do
  let t ← read s
  if (peek? t.rest).isSome then breach .trailingCharacters else return t.value

end EnumNames.Json
