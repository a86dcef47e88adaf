import EnumNames.Json.Record
import EnumNames.Proofs.Json.Tree

/-!
# Reading a written record

A record is read as it was written if its fields are. It may leave out fields that need not be
there; the others may stand in any order, each of them once.

* `Entry`: a written field, and what reading it does to the record.
* `yields_readNamed`: the fields of a record, up to its closing bracket.
* `readsBack_record`: a written record.
-/

namespace EnumNames.Json

open Text (bytesOf)

variable {α : Type} {s s' rest : List UInt8} {a b : α} {schema : Schema α} {name : String}
  {field : Field α}

/-! ## Keys -/

/-- The fields of a record, each after a comma. -/
def moreFieldChars (fields : List (String × Tree)) : List Char :=
  fields.flatMap fun (name, t) => ',' :: textLiteral name ++ ':' :: t.chars

theorem fieldChars_cons (name : String) (t : Tree) (fields : List (String × Tree)) :
    Tree.fieldChars ((name, t) :: fields)
      = textLiteral name ++ ':' :: t.chars ++ moreFieldChars fields := by
  induction fields generalizing name t with
  | nil => rw [Tree.fieldChars, moreFieldChars, List.flatMap_nil, List.append_nil]
  | cons field fields ih =>
    rw [Tree.fieldChars, ih]
    · simp [moreFieldChars]
    · exact nofun

/-- After a field, another one follows or the record ends. -/
theorem endsPart_moreFieldChars (fields : List (String × Tree)) (s : List UInt8) :
    EndsPart (bytesOf (moreFieldChars fields) ++ 0x7d :: s) := by
  cases fields with
  | nil => exact ⟨_, _, rfl, .inr (.inr rfl)⟩
  | cons field fields => exact endsPart_comma _

/-- At the closing brace there is no further key. -/
theorem nextKey_end (isFirst : Bool) (s : List UInt8) :
    Schema.nextKey isFirst (0x7d :: s) = .ok none := by
  obtain ⟨p, hp, hchar, -⟩ := exists_peek? (s := 0x7d :: s) rfl rfl
  rw [Schema.nextKey, hp]
  dsimp only
  rw [if_pos (hchar.trans (by decide))]

/-- The next key has been read. -/
def ReadsKey (isFirst : Bool) (s : List UInt8) (name : String) (rest : List UInt8) : Prop :=
  ∃ key, Schema.nextKey isFirst s = .ok (some key) ∧ key.value = name ∧ key.rest = rest

/-- The first key is read without a comma. -/
theorem readsKey_first (name : String) (s : List UInt8) :
    ReadsKey true (bytesOf (textLiteral name) ++ s) name s := by
  obtain ⟨p, hp, hchar, hrest, -⟩ := exists_peek? (bytesOf_textLiteral name s) rfl
  have hquote : p.char = '"' := hchar.trans (by decide)
  have hname := yields_readText name s
  rw [← hrest] at hname
  obtain ⟨t, ht, hvalue, htrest⟩ := hname
  unfold ReadsKey
  rw [Schema.nextKey, hp]
  dsimp only
  rw [if_neg (by rw [hquote]; decide), if_pos rfl, if_pos hquote, ht]
  exact ⟨_, rfl, hvalue, htrest⟩

theorem readsKey_later (name : String) (s : List UInt8) :
    ReadsKey false (0x2c :: (bytesOf (textLiteral name) ++ s)) name s := by
  obtain ⟨p, hp, hchar, hrest, -⟩ := exists_peek? (s := 0x2c :: _) rfl rfl
  have hcomma : p.char = ',' := hchar.trans (by decide)
  obtain ⟨q, hq, hqchar, hqrest, -⟩ := exists_peek? (hrest.trans (bytesOf_textLiteral name s)) rfl
  have hname := yields_readText name s
  rw [← hqrest] at hname
  obtain ⟨t, ht, hvalue, htrest⟩ := hname
  unfold ReadsKey
  rw [Schema.nextKey, hp]
  dsimp only
  rw [if_neg (by rw [hcomma]; decide), if_neg (by decide), if_pos hcomma, hq]
  dsimp only
  rw [if_pos (hqchar.trans (by decide)), ht]
  exact ⟨_, rfl, hvalue, htrest⟩

/-! ## Fields -/

theorem yields_passColon (s : List UInt8) : Yields (passColon (0x3a :: s)) () s := by
  obtain ⟨p, hp, hchar, hrest, -⟩ := exists_peek? (s := 0x3a :: s) rfl rfl
  rw [passColon, hp]
  dsimp only
  rw [if_pos (hchar.trans (by decide))]
  exact ⟨_, rfl, rfl, hrest⟩

/-- After the colon, a field is read. -/
theorem yields_readValue {update : α → α} (h : Yields (field.read s) update rest) :
    Yields (Schema.readValue (some field) (0x3a :: s)) update rest := by
  obtain ⟨colon, hcolon, -, hs⟩ := yields_passColon s
  rw [← hs] at h
  obtain ⟨t, ht, hupdate, hrest⟩ := h
  rw [Schema.readValue, hcolon]
  show Yields (field.read colon.rest >>= _) _ _
  rw [ht]
  exact ⟨_, rfl, hupdate, hrest⟩

theorem yields_recordEnd (a : α) (s : List UInt8) :
    Yields (Schema.recordEnd a (0x7d :: s)) a s := by
  obtain ⟨p, hp, hchar, hrest, -⟩ := exists_peek? (s := 0x7d :: s) rfl rfl
  rw [Schema.recordEnd, hp]
  dsimp only
  rw [if_pos (hchar.trans (by decide))]
  exact ⟨_, rfl, rfl, hrest⟩

/-- The record ends if no field is missing. -/
theorem yields_readNamed_end {seen : List String} {isFirst : Bool}
    (h : ∀ field ∈ schema.fields, field.presence = .required → field.name ∈ seen) (a : α)
    (s : List UInt8) : Yields (schema.readNamed a seen isFirst (0x7d :: s)) a s := by
  have hmissing : schema.missing? seen = none := by
    rw [Schema.missing?, List.find?_eq_none]
    intro field hfield
    by_cases hrequired : field.presence = .required
    · simp [h field hfield hrequired]
    · simp [hrequired]
  rw [Schema.readNamed, nextKey_end]
  dsimp only
  rw [hmissing]
  exact yields_recordEnd a s

/-- One field is read, then those after it. -/
theorem yields_readNamed_next {seen : List String} {isFirst : Bool} {update : α → α}
    {last : List UInt8} (hkey : ReadsKey isFirst s name (0x3a :: s')) (hseen : name ∉ seen)
    (hfield : schema.fields.find? (·.name == name) = some field)
    (hvalue : Yields (field.read s') update rest)
    (h : Yields (schema.readNamed (update a) (name :: seen) false rest) b last) :
    Yields (schema.readNamed a seen isFirst s) b last := by
  -- the reader looks a field up by its key, and goes on with the name of the field as seen
  obtain ⟨key, hkey, rfl, hs⟩ := hkey
  have hname : field.name = key.value := by simpa using List.find?_some hfield
  have hread := yields_readValue hvalue
  rw [← hs] at hread
  obtain ⟨t, ht, rfl, rfl⟩ := hread
  obtain ⟨u, hu, hb, hlast⟩ := h
  rw [Schema.readNamed, hkey]
  dsimp only
  rw [if_neg (by simpa using hseen), hfield, ht]
  dsimp only
  rw [Option.map_some, hname, Option.toList_some, List.singleton_append, hu]
  exact ⟨_, rfl, hb, hlast⟩

/-! ## Records -/

/-- A field as it is written, and what reading it does to the record. -/
structure Entry (α : Type) where
  name : String
  tree : Tree
  update : α → α

/-- The name of a field with its value. -/
def Entry.written (e : Entry α) : String × Tree :=
  (e.name, e.tree)

/-- The record after some fields are read. -/
def Entry.applyAll (es : List (Entry α)) (a : α) : α :=
  es.foldl (fun a e => e.update a) a

/-- A schema has a field of that name that reads the value. -/
def Entry.IsRead (schema : Schema α) (e : Entry α) : Prop :=
  ∃ field, schema.fields.find? (·.name == e.name) = some field
    ∧ ReadsBack field.read e.tree e.update

/-- What a schema needs to read some fields after others that have been seen. -/
structure Schema.Accepts (schema : Schema α) (seen : List String) (es : List (Entry α)) : Prop where
  isRead : ∀ e ∈ es, e.IsRead schema
  nodup : (es.map Entry.name ++ seen).Nodup
  required : ∀ field ∈ schema.fields, field.presence = .required →
    field.name ∈ es.map Entry.name ++ seen

section Entries

variable {e : Entry α} {es : List (Entry α)} {seen : List String}

/-- A field that is read has been seen. -/
theorem Schema.Accepts.tail (h : schema.Accepts seen (e :: es)) :
    schema.Accepts (e.name :: seen) es where
  isRead e' he' := h.isRead e' (List.mem_cons_of_mem e he')
  nodup := List.perm_middle.nodup_iff.2 h.nodup
  required field hfield hpresence :=
    List.perm_middle.mem_iff.2 (h.required field hfield hpresence)

/-- A key is accepted once. -/
theorem Schema.Accepts.notMem_seen (h : schema.Accepts seen (e :: es)) : e.name ∉ seen := by
  intro hmem
  have hnodup := h.nodup
  rw [List.map_cons, List.cons_append] at hnodup
  exact (List.nodup_cons.1 hnodup).1 (List.mem_append_right _ hmem)

/-- The bytes of the fields that follow others, and of the closing bracket. -/
def moreBytes (es : List (Entry α)) (s : List UInt8) : List UInt8 :=
  bytesOf (moreFieldChars (es.map Entry.written)) ++ 0x7d :: s

theorem moreBytes_cons (e : Entry α) (es : List (Entry α)) (s : List UInt8) :
    moreBytes (e :: es) s = 0x2c :: (bytesOf (textLiteral e.name)
      ++ 0x3a :: (bytesOf e.tree.chars ++ moreBytes es s)) := by
  have hchars : moreFieldChars ((e :: es).map Entry.written)
      = ',' :: (textLiteral e.name ++ ':' :: (e.tree.chars
        ++ moreFieldChars (es.map Entry.written))) := by
    simp [moreFieldChars, Entry.written]
  rw [moreBytes, hchars]
  simp only [bytesOf, List.flatMap_cons, List.flatMap_append, List.append_assoc]
  rfl

/-- The bytes of a record begin with those of its first field. -/
theorem fieldBytes_cons (e : Entry α) (es : List (Entry α)) (s : List UInt8) :
    bytesOf (Tree.fieldChars ((e :: es).map Entry.written)) ++ 0x7d :: s
      = bytesOf (textLiteral e.name) ++ 0x3a :: (bytesOf e.tree.chars ++ moreBytes es s) := by
  rw [List.map_cons, Entry.written, fieldChars_cons, Text.bytesOf_append, Text.bytesOf_append,
    List.append_assoc, List.append_assoc]
  rfl

/-- One field is read if its key is, then those after it. -/
theorem yields_readNamed_cons {isFirst : Bool} (h : schema.Accepts seen (e :: es))
    (hkey : ReadsKey isFirst s e.name (0x3a :: (bytesOf e.tree.chars ++ moreBytes es rest)))
    (hmore : Yields (schema.readNamed (e.update a) (e.name :: seen) false (moreBytes es rest)) b
      rest) :
    Yields (schema.readNamed a seen isFirst s) b rest := by
  obtain ⟨field, hfield, hvalue⟩ := h.isRead e List.mem_cons_self
  exact yields_readNamed_next hkey h.notMem_seen hfield
    (hvalue _ (endsPart_moreFieldChars _ rest)) hmore

/-- The fields that follow others are read in order. -/
theorem yields_moreFields (h : schema.Accepts seen es) (a : α) (s : List UInt8) :
    Yields (schema.readNamed a seen false (moreBytes es s)) (Entry.applyAll es a) s := by
  -- what the schema needs is kept as the fields move from those ahead to those that were seen
  induction es generalizing seen a with
  | nil => exact yields_readNamed_end h.required a s
  | cons e es ih =>
    rw [moreBytes_cons]
    exact yields_readNamed_cons h (readsKey_later _ _) (ih h.tail (e.update a))

/-- The fields of a record are read one after the other. -/
theorem yields_fields (h : schema.Accepts [] es) (a : α) (s : List UInt8) :
    Yields (schema.readNamed a [] true
      (bytesOf (Tree.fieldChars (es.map Entry.written)) ++ 0x7d :: s)) (Entry.applyAll es a) s := by
  cases es with
  | nil => exact yields_readNamed_end h.required a s
  | cons e es =>
    rw [fieldBytes_cons]
    exact yields_readNamed_cons h (readsKey_first _ _) (yields_moreFields h.tail (e.update a) s)

/-- A written record is read, whatever comes next. -/
theorem yields_record (h : schema.Accepts [] es) (s : List UInt8) :
    Yields (schema.read (bytesOf (Tree.record (es.map Entry.written)).chars ++ s))
      (Entry.applyAll es schema.blank) s := by
  have hbytes : bytesOf (Tree.record (es.map Entry.written)).chars ++ s
      = 0x7b :: (bytesOf (Tree.fieldChars (es.map Entry.written)) ++ 0x7d :: s) := by
    rw [Tree.chars, Text.bytesOf_append, List.append_assoc]
    rfl
  obtain ⟨p, hp, hchar, hrest, -⟩ := exists_peek? hbytes rfl
  have hopening : p.char = '\x7b' := hchar.trans (by decide)
  rw [Schema.read, hp]
  dsimp only
  rw [if_neg (by rw [hopening]; decide), if_pos hopening]
  have hfields := yields_fields h schema.blank s
  rw [← hrest] at hfields
  exact hfields.map (fun _ => id) fun _ => rfl

/-- A record is read back as what its fields make of a blank one. -/
theorem readsBack_record (h : schema.Accepts [] es) :
    ReadsBack schema.read (.record (es.map Entry.written)) (Entry.applyAll es schema.blank) :=
  fun rest _ => yields_record h rest

end Entries

/-- A record that makes up a whole document is read. -/
theorem readDocument_record {es : List (Entry α)} (h : schema.Accepts [] es) :
    readDocument schema.read (Tree.record (es.map Entry.written)).render.toUTF8.toList
      = .ok (Entry.applyAll es schema.blank) := by
  have hrecord := yields_record h []
  rw [List.append_nil] at hrecord
  obtain ⟨t, ht, hvalue, hrest⟩ := hrecord
  -- nothing is left after the closing bracket
  have hend : ¬ (peek? t.rest).isSome := by
    rw [hrest]
    decide
  rw [Tree.render, Text.toList_toUTF8_ofList, readDocument, ht]
  show (if (peek? t.rest).isSome then _ else _) = _
  rw [if_neg hend, ← hvalue]
  rfl

end EnumNames.Json
