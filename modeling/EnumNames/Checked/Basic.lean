import EnumNames.NameTable

/-!
# Checked operations

The generator reads lists at places, cuts lists and texts in two, and counts in machine words. Each
of these is an operation that fails outside its domain. Here they are functions that report a fault
there, so that it can be told whether a computation stays within all domains.

* `Fault` lists what may go wrong, `Checked` is the result of a computation that may meet a fault.
* `Checked.add`, `Checked.sub` and `Checked.subSigned` are arithmetic of machine words.
* `Checked.element`, `Checked.enumerate`, `Checked.elementsFrom` and `Checked.cut` are for lists,
  `Checked.slice` is for texts.
-/

namespace EnumNames

/-- What goes wrong in an operation outside its domain. -/
inductive Fault
  /-- A place behind the last element of a list. -/
  | place
  /-- A part that does not lie inside its list or text. -/
  | part
  /-- A part of a text that begins or ends inside a character. -/
  | boundary
  /-- A count that is no machine word. -/
  | overflow
  deriving DecidableEq, Repr

/-- The result of a computation that may meet a fault. -/
abbrev Checked (α : Type) :=
  Except Fault α

namespace Checked

variable {α : Type}

/-! ## Counts -/

/-- The number of machine words. -/
def wordCount : Nat :=
  0x10000000000000000

/-- A sum that is a machine word. -/
def add (a b : Nat) : Checked { n : Nat // n = a + b } :=
  if a + b < wordCount then .ok ⟨a + b, rfl⟩ else .error .overflow

/-- A difference that is not negative. -/
def sub (a b : Nat) : Checked { n : Nat // n + b = a } :=
  if h : b ≤ a then .ok ⟨a - b, Nat.sub_add_cancel h⟩ else .error .overflow

/-- A difference that is a signed number of two words. -/
def subSigned (a b : Int) : Checked Int :=
  if -0x80000000000000000000000000000000 ≤ a - b ∧ a - b < 0x80000000000000000000000000000000 then
    .ok (a - b)
  else .error .overflow

/-! ## Lists -/

/-- The element at a place. -/
def element (xs : List α) (i : Nat) : Checked α :=
  match xs[i]? with
  | some x => .ok x
  | none => .error .place

/-- The elements with their places; the place after the last one is counted, too. -/
def enumerate (xs : List α) : Checked (List (α × Nat)) :=
  if xs.length < wordCount then .ok xs.zipIdx else .error .overflow

/-- The elements from a place on. -/
def elementsFrom (xs : List α) (i : Nat) : Checked (List α) :=
  if i ≤ xs.length then .ok (xs.drop i) else .error .part

/-- A list in two parts, of which the first has a given length. -/
structure Parts (xs : List α) (i : Nat) where
  front : List α
  back : List α
  length_back : back.length + i = xs.length

/-- Cuts a list in two. -/
def cut (xs : List α) (i : Nat) : Checked (Parts xs i) :=
  if h : i ≤ xs.length then
    .ok ⟨xs.take i, xs.drop i, by rw [List.length_drop, Nat.sub_add_cancel h]⟩
  else .error .part

/-! ## Texts -/

/-- The part of a text from byte `low` to byte `high`. -/
def slice (s : String) (low high : Nat) : Checked String :=
  if high < low ∨ s.utf8ByteSize < high then .error .part
  else
    match byteSlice? s low high with
    | some part => .ok part
    | none => .error .boundary

end Checked

end EnumNames
