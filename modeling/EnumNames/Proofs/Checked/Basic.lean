import EnumNames.Checked.Basic
import EnumNames.Proofs.Except
import EnumNames.Proofs.NameTable

/-!
# Operations inside their domains

Inside its domain, a checked operation gives what the unchecked one gives.

* `add_eq`, `sub_eq`, `subSigned_eq`: counts.
* `element_eq`, `enumerate_eq`, `elementsFrom_eq`, `cut_eq`: lists.
* `slice_blob_ofNames`: the bytes between two offsets in a row are a part of the blob.
* `mapM_eq`: a row of steps that meet no fault.
-/

namespace EnumNames.Checked

variable {α β : Type}

@[simp] theorem ok_bind (a : α) (f : α → Checked β) : ((.ok a : Checked α) >>= f) = f a := rfl

@[simp] theorem pure_eq (a : α) : (pure a : Checked α) = .ok a := rfl

/-! ## Counts -/

/-- A sum that fits a machine word is added without a fault. -/
theorem add_eq {a b : Nat} (h : a + b < wordCount) : add a b = .ok ⟨a + b, rfl⟩ :=
  if_pos h

/-- A smaller count is taken away without a fault, and the result knows what it is the rest of. -/
theorem sub_eq {a b : Nat} (h : b ≤ a) : sub a b = .ok ⟨a - b, Nat.sub_add_cancel h⟩ :=
  dif_pos h

/-- A difference that fits 128 bits is computed without a fault. -/
theorem subSigned_eq {a b : Int} (hlow : -0x80000000000000000000000000000000 ≤ a - b)
    (hhigh : a - b < 0x80000000000000000000000000000000) : subSigned a b = .ok (a - b) :=
  if_pos ⟨hlow, hhigh⟩

/-! ## Lists -/

section Lists

variable {xs : List α} {i : Nat}

/-- An element that is there is read without a fault. -/
theorem element_eq {x : α} (h : xs[i]? = some x) : element xs i = .ok x := by
  rw [element, h]

/-- The places of a list whose length fits a machine word are counted without a fault. -/
theorem enumerate_eq (h : xs.length < wordCount) : enumerate xs = .ok xs.zipIdx :=
  if_pos h

/-- A list may be read from any place up to its end. -/
theorem elementsFrom_eq (h : i ≤ xs.length) : elementsFrom xs i = .ok (xs.drop i) :=
  if_pos h

/-- A list may be cut at any place up to its end. -/
theorem cut_eq (h : i ≤ xs.length) :
    cut xs i
      = .ok ⟨xs.take i, xs.drop i, by rw [List.length_drop, Nat.sub_add_cancel h]⟩ :=
  dif_pos h

end Lists

/-! ## Texts -/

/-- Two places in order, both at ends of characters, cut a part out of a text without a fault. -/
theorem slice_eq {s part : String} {low high : Nat} (hlow : low ≤ high)
    (hhigh : high ≤ s.utf8ByteSize) (h : byteSlice? s low high = some part) :
    slice s low high = .ok part := by
  rw [slice, if_neg (by omega), h]

-- the first byte of a character of two bytes is no part of a text
example : slice "é" 0 1 = .error .boundary := rfl

/-- The offsets of a name lie in the blob, in order and at ends of characters. -/
theorem slice_blob_ofNames {names : List String} {i : Nat} (h : i < names.length) :
    slice (NameTable.ofNames names).blob (NameTable.byteCount (names.take i))
      (NameTable.byteCount (names.take (i + 1))) = .ok names[i] := by
  refine slice_eq ?_ ?_ (NameTable.byteSlice?_blob_ofNames h)
  · rw [List.take_succ_eq_append_getElem h, NameTable.byteCount_append]
    exact Nat.le_add_right _ _
  · rw [NameTable.utf8ByteSize_blob_ofNames]
    exact NameTable.byteCount_take_le names (i + 1)

/-! ## Rows of steps -/

/-- If no step of a row meets a fault, the row gives what the plain map gives. -/
theorem mapM_eq {f : α → Checked β} {g : α → β} {xs : List α} (h : ∀ x ∈ xs, f x = .ok (g x)) :
    xs.mapM f = .ok (xs.map g) := by
  rw [mapM_eq_ok_iff, List.forall₂_map_right_iff, List.forall₂_same]
  exact h

end EnumNames.Checked
