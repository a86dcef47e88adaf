import EnumNames.Kind

/-!
# Declared constants

A constant is kept as a pattern of 64 bits together with the way to read it. Order and every printed
number go through `Constant.value`, so that signed and unsigned patterns compare as numbers;
`Constant.bits` alone decides when two constants are the same pattern.
-/

namespace EnumNames

/-- One declared constant of an enumeration. -/
structure Constant where
  /-- The text shown for the constant. -/
  name : String
  /-- The expression that denotes the constant in emitted code. -/
  reference : String
  /-- The 64-bit pattern of the value. -/
  bits : BitVec 64
  /-- Whether the pattern is read in two's complement. -/
  signed : Bool
  /-- The literal that the consistency guard compares with. -/
  canonical : String
  deriving DecidableEq, Repr, Inhabited

/-- An enumeration and its constants, in order of declaration. -/
structure Enumeration where
  /-- The name of the type. -/
  name : String
  /-- The kind as it was spelled, which need not be one. -/
  kind : String
  constants : List Constant
  deriving DecidableEq, Repr, Inhabited

namespace Constant

/-- The number that the constant stands for. -/
def value (c : Constant) : Int :=
  if c.signed then c.bits.toInt else c.bits.toNat

/-- The decimal literal of the value. -/
def decimal (c : Constant) : String :=
  toString c.value

/-- The constant with value `n`, reduced to 64 bits, and its decimal literal. -/
def ofInt (signed : Bool) (name reference : String) (n : Int) : Constant :=
  let c : Constant := ⟨name, reference, BitVec.ofInt 64 n, signed, ""⟩
  { c with canonical := c.decimal }

/-- The order of constants by value. -/
def compareValue (a b : Constant) : Ordering :=
  compare a.value b.value

end Constant

end EnumNames
