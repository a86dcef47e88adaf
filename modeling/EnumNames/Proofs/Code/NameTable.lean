import EnumNames.Proofs.Checked.Display
import EnumNames.Proofs.Code.ReadItem
import Mathlib.Algebra.Group.Nat.Defs

/-!
# The array of offsets of a table

The last offset of a table is the length of its blob, and it is the greatest one. So the element
type that is chosen by the length of the blob is the narrowest one that holds every offset.

* `IndexWidth.IsNarrowest`: no narrower width holds some numbers.
* `NameTable.isNarrowest_width`: the width of a table.
* `NameTable.ofNames_exact`: the offsets, the names, the width and the emitted array of a table.
-/

namespace EnumNames

/-! ## Widths -/

namespace IndexWidth

variable {length : Nat} {w : IndexWidth}

/-- The width chosen for a length can hold it. -/
theorem lt_two_pow_bits_ofLength (h : length < 2 ^ 32) :
    length < 2 ^ (ofLength length).bits := by
  rw [ofLength]
  split
  · show length < 2 ^ 8
    omega
  · split
    · show length < 2 ^ 16
      omega
    · exact h

/-- A width that is narrower than the one for a length does not hold the length. -/
theorem two_pow_bits_le (h : w.bits < (ofLength length).bits) : 2 ^ w.bits ≤ length := by
  rw [ofLength] at h
  split at h
  · exact absurd h (by cases w <;> decide)
  · split at h
    · cases w with
      | u8 =>
        show 2 ^ 8 ≤ length
        omega
      | u16 | u32 => exact absurd h (by decide)
    · cases w with
      | u8 =>
        show 2 ^ 8 ≤ length
        omega
      | u16 =>
        show 2 ^ 16 ≤ length
        omega
      | u32 => exact absurd h (by decide)

/-- Whether a width holds some numbers and no narrower one does. -/
structure IsNarrowest (w : IndexWidth) (values : List Nat) : Prop where
  lt_two_pow : ∀ n ∈ values, n < 2 ^ w.bits
  exists_two_pow_le : ∀ w' : IndexWidth, w'.bits < w.bits → ∃ n ∈ values, 2 ^ w'.bits ≤ n

end IndexWidth

namespace NameTable

variable {names : List String}

/-- The width that is chosen by the length of the blob is the narrowest one for the offsets. -/
theorem isNarrowest_width {t : NameTable} (h : t.Indexes names)
    (hsize : t.blob.utf8ByteSize < 2 ^ 32) : t.width.IsNarrowest t.offsets where
  lt_two_pow n hn := by
    have hle := h.le_size hn
    exact Nat.lt_of_le_of_lt hle (IndexWidth.lt_two_pow_bits_ofLength hsize)
  exists_two_pow_le w' hw' := by
    -- the offset that a narrower width does not hold is the last one
    have hlast := List.mem_of_getLast? h.getLast?_eq
    exact ⟨_, hlast, IndexWidth.two_pow_bits_le hw'⟩

/-! ## The emitted array -/

/-- The text of the array of offsets, at some depth. -/
def indexText (t : NameTable) (name : String) (depth : Nat) : String :=
  Layout.textAt depth (Code.Item.offsets name t.width t.offsets).steps

/-- For all names, the offsets of their table are as they have to be, each place has the name that
was put there and no other place has one. Whatever the array is called, its text declares as many
elements as it has and is read back as the offsets. The element type is the narrowest one, if the
blob is not too long for all of them. -/
theorem ofNames_exact (names : List String) :
    (ofNames names).Indexes names
      ∧ (ofNames names).size = names.length
      ∧ (∀ i, (ofNames names).get? i = names[i]?)
      ∧ (names.length < Checked.wordCount →
          ∀ i, Checked.tableName? (ofNames names) i = .ok names[i]?)
      ∧ (∀ name depth, ∃ front back, (ofNames names).indexText name depth = front ++ name ++ back
          ∧ Code.readBehind? name back
            = some (.offsets name (ofNames names).width (ofNames names).offsets))
      ∧ (∀ name depth, Code.isPlainIdentifier name →
          Code.read? ((ofNames names).indexText name depth)
            = some [.offsets name (ofNames names).width (ofNames names).offsets])
      ∧ ((ofNames names).blob.utf8ByteSize < 2 ^ 32 →
          (ofNames names).width.IsNarrowest (ofNames names).offsets) := by
  have hindexes := indexes_ofNames names
  have hoffsets := offsets_ofNames_ne_nil names
  refine ⟨hindexes, size_ofNames names, get?_ofNames names, fun hlength i => ?_,
    fun name depth => ?_, fun name depth hname => ?_, isNarrowest_width hindexes⟩
  · rw [Checked.tableName?_ofNames hlength, get?_ofNames]
  · exact ⟨_, _, Code.textAt_offsets name _ _ depth, Code.readBehind?_offsets name _ hoffsets⟩
  · exact Code.read?_offsets hname _ hoffsets depth

/-- Names without a character and characters of several bytes. -/
theorem ofNames_exact_multibyte :
    (ofNames ["", "é", "名", ""]).blob.utf8ByteSize < 2 ^ 32
      ∧ Checked.tableName? (ofNames ["", "é", "名", ""]) 2 = .ok (some "名")
      ∧ Code.read? ((ofNames ["", "é", "名", ""]).indexText "_Sign_index" 0)
        = some [.offsets "_Sign_index" .u8 [0, 0, 2, 5, 5]]
      ∧ IndexWidth.u8.IsNarrowest [0, 0, 2, 5, 5] := by
  have hexact := ofNames_exact ["", "é", "名", ""]
  have hsize : (ofNames ["", "é", "名", ""]).blob.utf8ByteSize < 2 ^ 32 := by decide
  have hread := hexact.2.2.2.2.2.1 "_Sign_index" 0 (by decide)
  have hnarrowest := hexact.2.2.2.2.2.2 hsize
  exact ⟨hsize, hexact.2.2.2.1 (by decide) 2, hread, hnarrowest⟩

end NameTable

end EnumNames
