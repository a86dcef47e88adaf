import EnumNames.Layout
import EnumNames.Text.Quoted

/-!
# Name tables

Many names are stored as one text, the blob, with the byte offsets at which they begin and end. Name
`i` is the slice of the blob from offset `i` to offset `i + 1`. Offsets count bytes of UTF-8, and
the array that holds them has the narrowest element type in which the length of the blob fits.
-/

namespace EnumNames

/-! ## Slices of bytes -/

/-- What follows the first `n` bytes, if a character ends there. -/
def dropBytes? : Nat → List Char → Option (List Char)
  | 0, cs => some cs
  | _ + 1, [] => none
  | n + 1, c :: cs => if c.utf8Size ≤ n + 1 then dropBytes? (n + 1 - c.utf8Size) cs else none

/-- The first `n` bytes, if a character ends there. -/
def takeBytes? : Nat → List Char → Option (List Char)
  | 0, _ => some []
  | _ + 1, [] => none
  | n + 1, c :: cs =>
    if c.utf8Size ≤ n + 1 then (takeBytes? (n + 1 - c.utf8Size) cs).map (c :: ·) else none

/-- The part of a text from byte `low` to byte `high`; both have to be ends of characters. -/
def byteSlice? (s : String) (low high : Nat) : Option String :=
  if low ≤ high then
    (dropBytes? low s.toList).bind fun cs => (takeBytes? (high - low) cs).map String.ofList
  else none

/-! ## Widths -/

/-- Element type of an array of offsets. -/
inductive IndexWidth
  | u8
  | u16
  | u32
  deriving DecidableEq, Repr, Inhabited

namespace IndexWidth

/-- Every width, in increasing order. -/
def all : List IndexWidth :=
  [.u8, .u16, .u32]

/-- The narrowest width for offsets up to `length`; texts of `2 ^ 32` bytes are not provided for. -/
def ofLength (length : Nat) : IndexWidth :=
  if length < 0x100 then .u8 else if length < 0x10000 then .u16 else .u32

/-- The width in bits. -/
def bits : IndexWidth → Nat
  | .u8 => 8
  | .u16 => 16
  | .u32 => 32

/-- The element type in source text. -/
def name : IndexWidth → String
  | .u8 => "u8"
  | .u16 => "u16"
  | .u32 => "u32"

end IndexWidth

/-! ## Tables -/

/-- Names laid out in one text. -/
structure NameTable where
  /-- The names one after the other. -/
  blob : String
  /-- Where each name begins, followed by the length of the blob. -/
  offsets : List Nat
  deriving DecidableEq, Repr

namespace NameTable

/-- Byte offsets of the names that follow `start`, and of their end. -/
def offsetsFrom (start : Nat) : List String → List Nat
  | [] => [start]
  | name :: names => start :: offsetsFrom (start + name.utf8ByteSize) names

/-- The table of some names. -/
def ofNames (names : List String) : NameTable :=
  ⟨String.join names, offsetsFrom 0 names⟩

/-- The number of names. -/
def size (t : NameTable) : Nat :=
  t.offsets.length - 1

/-- The element type of the array of offsets. -/
def width (t : NameTable) : IndexWidth :=
  .ofLength t.blob.utf8ByteSize

/-- Begin and end of every name. -/
def spans (t : NameTable) : List (Nat × Nat) :=
  t.offsets.zip t.offsets.tail

/-- Begin and end of name `i`. -/
def span? (t : NameTable) (i : Nat) : Option (Nat × Nat) :=
  t.spans[i]?

/-- Name `i`. -/
def get? (t : NameTable) (i : Nat) : Option String :=
  (t.span? i).bind fun (low, high) => byteSlice? t.blob low high

end NameTable

end EnumNames
