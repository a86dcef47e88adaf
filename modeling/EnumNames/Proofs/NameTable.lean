import EnumNames.NameTable

/-!
# Name tables lose nothing

Every name is read back from the blob by its place, because an offset is the number of bytes of the
names before it.

* `byteSlice?_append`: a part of a text is the slice between the bytes before it and its own.
* `span?_ofNames`, `get?_ofNames`: span and name at a place.
* `NameTable.Indexes`: what is asked of the offsets; each name that is put behind the others keeps it.
-/

namespace EnumNames

/-! ## Bytes -/

theorem utf8ByteSize_ofList_cons (c : Char) (cs : List Char) :
    (String.ofList (c :: cs)).utf8ByteSize = c.utf8Size + (String.ofList cs).utf8ByteSize := by
  rw [← List.singleton_append, String.ofList_append, String.utf8ByteSize_append,
    ← String.singleton_eq_ofList, String.utf8ByteSize_singleton]

/-- A text is left behind the bytes of the one in front of it. -/
theorem dropBytes?_append (cs rest : List Char) :
    dropBytes? (String.ofList cs).utf8ByteSize (cs ++ rest) = some rest := by
  induction cs with
  | nil => rw [String.ofList_nil, String.utf8ByteSize_empty, dropBytes?, List.nil_append]
  | cons c cs ih =>
    have hpos := c.utf8Size_pos
    rw [utf8ByteSize_ofList_cons, List.cons_append]
    obtain ⟨n, hn⟩ : ∃ n, c.utf8Size + (String.ofList cs).utf8ByteSize = n + 1 :=
      ⟨_, (Nat.sub_add_cancel (by omega)).symm⟩
    rw [hn, dropBytes?, if_pos (by omega), ← hn, Nat.add_sub_cancel_left]
    exact ih

theorem takeBytes?_append (cs rest : List Char) :
    takeBytes? (String.ofList cs).utf8ByteSize (cs ++ rest) = some cs := by
  induction cs with
  | nil => rw [String.ofList_nil, String.utf8ByteSize_empty, takeBytes?]
  | cons c cs ih =>
    have hpos := c.utf8Size_pos
    rw [utf8ByteSize_ofList_cons, List.cons_append]
    obtain ⟨n, hn⟩ : ∃ n, c.utf8Size + (String.ofList cs).utf8ByteSize = n + 1 :=
      ⟨_, (Nat.sub_add_cancel (by omega)).symm⟩
    rw [hn, takeBytes?, if_pos (by omega), ← hn, Nat.add_sub_cancel_left, ih]
    rfl

/-- A part of a text is the slice that begins after the bytes before it. -/
theorem byteSlice?_append (a b c : String) :
    byteSlice? (a ++ b ++ c) a.utf8ByteSize (a.utf8ByteSize + b.utf8ByteSize) = some b := by
  have hdrop := dropBytes?_append a.toList (b.toList ++ c.toList)
  have htake := takeBytes?_append b.toList c.toList
  rw [String.ofList_toList] at hdrop htake
  rw [byteSlice?, if_pos (Nat.le_add_right _ _), String.toList_append, String.toList_append,
    List.append_assoc, hdrop, Option.bind_some, Nat.add_sub_cancel_left, htake, Option.map_some,
    String.ofList_toList]

/-! ## Offsets -/

namespace NameTable

/-- The number of bytes of some names. -/
def byteCount : List String → Nat
  | [] => 0
  | name :: names => name.utf8ByteSize + byteCount names

@[simp] theorem byteCount_nil : byteCount [] = 0 := rfl

@[simp] theorem byteCount_cons (name : String) (names : List String) :
    byteCount (name :: names) = name.utf8ByteSize + byteCount names := rfl

/-- The sizes of two lists add up. -/
theorem byteCount_append (names names' : List String) :
    byteCount (names ++ names') = byteCount names + byteCount names' := by
  induction names with
  | nil => rw [List.nil_append, byteCount_nil, Nat.zero_add]
  | cons name names ih => rw [List.cons_append, byteCount_cons, byteCount_cons, ih, Nat.add_assoc]

theorem byteCount_le_of_sublist {names names' : List String} (h : names.Sublist names') :
    byteCount names ≤ byteCount names' := by
  induction h with
  | slnil => exact Nat.le_refl _
  | cons name h ih =>
    rw [byteCount_cons]
    omega
  | cons_cons name h ih =>
    rw [byteCount_cons, byteCount_cons]
    omega

/-- The order of names does not change their size. -/
theorem byteCount_eq_of_perm {names names' : List String} (h : names.Perm names') :
    byteCount names = byteCount names' := by
  induction h with
  | nil => rfl
  | cons name h ih => rw [byteCount_cons, byteCount_cons, ih]
  | swap name name' names =>
    simp only [byteCount_cons]
    omega
  | trans h h' ih ih' => rw [ih, ih']

theorem byteCount_take_le (names : List String) (i : Nat) :
    byteCount (names.take i) ≤ byteCount names :=
  byteCount_le_of_sublist (List.take_sublist i names)

/-- All names but one have a byte of their own, if no name occurs twice. -/
theorem length_le_of_nodup {names : List String} (h : names.Nodup) :
    names.length ≤ byteCount names + if "" ∈ names then 1 else 0 := by
  induction names with
  | nil => exact Nat.zero_le _
  | cons name names ih =>
    rw [List.nodup_cons] at h
    have hrest := ih h.2
    rw [byteCount_cons, List.length_cons]
    by_cases hempty : name = ""
    · subst hempty
      rw [if_neg h.1] at hrest
      rw [if_pos List.mem_cons_self]
      omega
    · have hpos : name.utf8ByteSize ≠ 0 := by
        rwa [Ne, String.utf8ByteSize_eq_zero_iff]
      simp only [List.mem_cons, Ne.symm hempty, false_or]
      omega

/-- Names in a row have the size of the names. -/
theorem utf8ByteSize_join (names : List String) :
    (String.join names).utf8ByteSize = byteCount names := by
  induction names with
  | nil => rfl
  | cons name names ih => rw [String.join_cons, String.utf8ByteSize_append, ih, byteCount_cons]

@[simp] theorem length_offsetsFrom (start : Nat) (names : List String) :
    (offsetsFrom start names).length = names.length + 1 := by
  induction names generalizing start with
  | nil => rfl
  | cons name names ih => rw [offsetsFrom, List.length_cons, ih, List.length_cons]

/-- An offset is the number of bytes of the names before it. -/
theorem getElem?_offsetsFrom (start : Nat) (names : List String) (i : Nat) :
    (offsetsFrom start names)[i]?
      = if i ≤ names.length then some (start + byteCount (names.take i)) else none := by
  induction names generalizing start i with
  | nil =>
    cases i with
    | zero => rfl
    | succ i => rfl
  | cons name names ih =>
    cases i with
    | zero => rfl
    | succ i =>
      rw [offsetsFrom, List.getElem?_cons_succ, ih, List.take_succ_cons, byteCount_cons,
        List.length_cons, Nat.add_assoc]
      simp only [Nat.add_le_add_iff_right]

theorem offsets_ofNames (names : List String) : (ofNames names).offsets = offsetsFrom 0 names := rfl

theorem length_offsets_ofNames (names : List String) :
    (ofNames names).offsets.length = names.length + 1 :=
  length_offsetsFrom 0 names

theorem offsets_ofNames_ne_nil (names : List String) : (ofNames names).offsets ≠ [] :=
  List.ne_nil_of_length_eq_add_one (length_offsets_ofNames names)

/-- A blob has the size of its names. -/
theorem utf8ByteSize_blob_ofNames (names : List String) :
    (ofNames names).blob.utf8ByteSize = byteCount names :=
  utf8ByteSize_join names

/-- An offset is the size of the names before it. -/
theorem getElem?_offsets_ofNames {names : List String} {i : Nat} (h : i ≤ names.length) :
    (ofNames names).offsets[i]? = some (byteCount (names.take i)) := by
  rw [offsets_ofNames, getElem?_offsetsFrom, if_pos h, Nat.zero_add]

/-- A name lies between its own offset and the next one. -/
theorem span?_ofNames {names : List String} {i : Nat} (h : i < names.length) :
    (ofNames names).span? i
      = some (byteCount (names.take i), byteCount (names.take (i + 1))) := by
  rw [span?, spans, List.getElem?_zip_eq_some, List.getElem?_tail]
  exact ⟨getElem?_offsets_ofNames (Nat.le_of_lt h), getElem?_offsets_ofNames h⟩

/-- Beyond the names there is nothing. -/
theorem span?_ofNames_of_le {names : List String} {i : Nat} (h : names.length ≤ i) :
    (ofNames names).span? i = none := by
  rw [span?, List.getElem?_eq_none]
  rw [spans, List.length_zip, List.length_tail, length_offsets_ofNames]
  omega

/-- The bytes between two offsets in a row are a name. -/
theorem byteSlice?_blob_ofNames {names : List String} {i : Nat} (h : i < names.length) :
    byteSlice? (ofNames names).blob (byteCount (names.take i)) (byteCount (names.take (i + 1)))
      = some names[i] := by
  have hsplit : names = names.take i ++ names[i] :: names.drop (i + 1) := by
    rw [List.getElem_cons_drop, List.take_append_drop]
  have hblob : (ofNames names).blob
      = String.join (names.take i) ++ names[i] ++ String.join (names.drop (i + 1)) := by
    calc String.join names
        = String.join (names.take i ++ names[i] :: names.drop (i + 1)) := by rw [← hsplit]
      _ = _ := by rw [String.join_append, String.join_cons, String.append_assoc]
  rw [hblob, List.take_succ_eq_append_getElem h, byteCount_append, ← utf8ByteSize_join,
    byteCount_cons, byteCount_nil, Nat.add_zero]
  exact byteSlice?_append _ _ _

/-- The name at a place is the one laid out there. -/
theorem get?_ofNames (names : List String) (i : Nat) : (ofNames names).get? i = names[i]? := by
  rw [get?]
  by_cases h : i < names.length
  · rw [span?_ofNames h, List.getElem?_eq_getElem h]
    exact byteSlice?_blob_ofNames h
  · rw [span?_ofNames_of_le (Nat.le_of_not_lt h), List.getElem?_eq_none (Nat.le_of_not_lt h)]
    rfl

/-! ## One name after the other -/

/-- The table with a name put behind the others. -/
def push (t : NameTable) (name : String) : NameTable :=
  ⟨t.blob ++ name, t.offsets ++ [(t.blob ++ name).utf8ByteSize]⟩

theorem offsetsFrom_eq_cons (start : Nat) (names : List String) :
    offsetsFrom start names = start :: (offsetsFrom start names).tail := by
  cases names <;> rfl

/-- Names that are added one by one are put behind the blob, with their offsets. -/
theorem foldl_push (t : NameTable) (names : List String) :
    names.foldl push t = ⟨t.blob ++ String.join names,
      t.offsets ++ (offsetsFrom t.blob.utf8ByteSize names).tail⟩ := by
  induction names generalizing t with
  | nil =>
    show t = ⟨t.blob ++ "", t.offsets ++ []⟩
    rw [String.append_empty, List.append_nil]
  | cons name names ih =>
    have htail : (offsetsFrom t.blob.utf8ByteSize (name :: names)).tail
        = (t.blob ++ name).utf8ByteSize
          :: (offsetsFrom (t.blob ++ name).utf8ByteSize names).tail := by
      rw [← offsetsFrom_eq_cons, String.utf8ByteSize_append]
      rfl
    rw [List.foldl_cons, ih, htail, String.join_cons]
    simp only [push, String.append_assoc, List.append_assoc, List.singleton_append]

/-- A table comes about by putting its names one behind the other. -/
theorem ofNames_eq_foldl (names : List String) : ofNames names = names.foldl push ⟨"", [0]⟩ := by
  have hoffsets := offsetsFrom_eq_cons 0 names
  rw [foldl_push, String.empty_append, ofNames, hoffsets]
  rfl

/-- What is asked of the offsets of a table: they begin with zero, never decrease, are one more than
the names and end with the length of the blob, and a character of the blob ends at each of them. -/
structure Indexes (t : NameTable) (names : List String) : Prop where
  head?_eq : t.offsets.head? = some 0
  pairwise_le : t.offsets.Pairwise (· ≤ ·)
  length_eq : t.offsets.length = names.length + 1
  getLast?_eq : t.offsets.getLast? = some t.blob.utf8ByteSize
  isValid : ∀ offset ∈ t.offsets, String.Pos.Raw.IsValid t.blob ⟨offset⟩

namespace Indexes

variable {t : NameTable} {names : List String}

/-- No offset is beyond the end of the blob. -/
theorem le_size (h : t.Indexes names) {offset : Nat} (hoffset : offset ∈ t.offsets) :
    offset ≤ t.blob.utf8ByteSize :=
  (h.isValid offset hoffset).le_utf8ByteSize

theorem empty : Indexes ⟨"", [0]⟩ [] where
  head?_eq := rfl
  pairwise_le := List.pairwise_singleton _ _
  length_eq := rfl
  getLast?_eq := rfl
  isValid offset hoffset := by
    rw [List.mem_singleton.1 hoffset]
    exact String.Pos.Raw.isValid_zero

/-- A name that is put behind the others ends at the last offset. -/
theorem push (h : t.Indexes names) (name : String) : (t.push name).Indexes (names ++ [name]) where
  head?_eq := by
    rw [NameTable.push, List.head?_append, h.head?_eq]
    rfl
  pairwise_le := by
    refine List.pairwise_append.2 ⟨h.pairwise_le, List.pairwise_singleton _ _, ?_⟩
    intro offset hoffset last hlast
    -- all offsets so far are places in the blob, which only grows
    have hle := h.le_size hoffset
    rw [List.mem_singleton.1 hlast, String.utf8ByteSize_append]
    omega
  length_eq := by
    rw [NameTable.push, List.length_append, List.length_append, h.length_eq]
    rfl
  getLast?_eq := by
    rw [NameTable.push, List.getLast?_append]
    rfl
  isValid offset hoffset := by
    rcases List.mem_append.1 hoffset with hoffset | hoffset
    · exact (h.isValid offset hoffset).append_right name
    · rw [List.mem_singleton.1 hoffset]
      exact String.Pos.Raw.isValid_rawEndPos

theorem foldl_push (h : t.Indexes names) (names' : List String) :
    (names'.foldl NameTable.push t).Indexes (names ++ names') := by
  induction names' generalizing t names with
  | nil => rwa [List.append_nil]
  | cons name names' ih =>
    have hall := ih (h.push name)
    rwa [List.append_assoc] at hall

end Indexes

/-- A table of names indexes them. -/
theorem indexes_ofNames (names : List String) : (ofNames names).Indexes names := by
  rw [ofNames_eq_foldl]
  exact Indexes.empty.foldl_push names

theorem size_ofNames (names : List String) : (ofNames names).size = names.length := by
  rw [size, (indexes_ofNames names).length_eq, Nat.add_sub_cancel]

end NameTable

end EnumNames
