/-!
# Binary floating point of 64 bits

A number of the format is a significand of at most 53 bits times a power of two. All arithmetic is
exact on natural numbers and rounds once, to the nearest number of the format, a tie to the even
significand.

* `Magnitude.round?` rounds a fraction.
* `Magnitude.ofDecimal?` reads a decimal number by a first rounding of its digits and one rounding
  for each multiplication or division by a power of ten, so that its result need not be the number
  nearest to the decimal.
-/

namespace EnumNames.Decimal

/-- The power of two with exponent `n`. -/
def twoPow (n : Nat) : Nat :=
  Nat.pow 2 n

/-- The power of ten with exponent `n`. -/
def tenPow (n : Nat) : Nat :=
  Nat.pow 10 n

/-- The nearest integer to a fraction, of two equally near ones the even one. -/
def roundDiv (n d : Nat) : Nat :=
  let quotient := n / d
  let twice := 2 * (n % d)
  if twice < d ∨ (twice = d ∧ quotient % 2 = 0) then quotient else quotient + 1

/-- The absolute value `significand * 2 ^ exponent` of a finite number. -/
structure Magnitude where
  /-- Less than `2 ^ 53`; at least `2 ^ 52` unless the exponent is least. -/
  significand : Nat
  /-- At least `-1074` and at most `971`. -/
  exponent : Int
  deriving DecidableEq, Repr, Inhabited

namespace Magnitude

/-- The least exponent. -/
def leastExponent : Int := -1074

/-- The greatest exponent. -/
def greatestExponent : Int := 971

/-- Zero. -/
def zero : Magnitude :=
  ⟨0, leastExponent⟩

/-- Rounds `n / d * 2 ^ e` to a multiple of `2 ^ q`. -/
def significandAt (n d : Nat) (e q : Int) : Nat :=
  roundDiv (n * twoPow (e - q).toNat) (d * twoPow (q - e).toNat)

/-- The exponent at which `n / d * 2 ^ e` has a significand of 53 bits, or the least exponent. -/
def exponentOf (n d : Nat) (e : Int) : Int :=
  let q := max (e + n.log2 - d.log2 - 53) leastExponent
  if n * twoPow (e - q).toNat < twoPow 53 * (d * twoPow (q - e).toNat) then q else q + 1

/-- The number nearest to `n / d * 2 ^ e`, unless that is beyond the greatest one. -/
def round? (n d : Nat) (e : Int) : Option Magnitude :=
  if n = 0 then some zero
  else
    let q := exponentOf n d e
    let m := significandAt n d e q
    let rounded : Magnitude := if m < twoPow 53 then ⟨m, q⟩ else ⟨twoPow 52, q + 1⟩
    if rounded.exponent ≤ greatestExponent then some rounded else none

/-- The product, rounded. -/
def mul? (a b : Magnitude) : Option Magnitude :=
  round? (a.significand * b.significand) 1 (a.exponent + b.exponent)

/-- The quotient, rounded. -/
def div? (a b : Magnitude) : Option Magnitude :=
  round? a.significand b.significand (a.exponent - b.exponent)

/-- The power of ten with exponent `k`, rounded. -/
def tenPow? (k : Nat) : Option Magnitude :=
  round? (tenPow k) 1 0

/-- The greatest exponent of a power of ten that is a number of the format. -/
def greatestTenPow : Nat := 308

/-- Divides by the power of ten with exponent `k`. -/
def divTenPow? (a : Magnitude) (k : Nat) : Option Magnitude :=
  (tenPow? k).bind a.div?

/-- Divides a number of times by the greatest power of ten; nothing more happens to zero. -/
def shrink? : Nat → Magnitude → Option Magnitude
  | 0, a => some a
  | times + 1, a =>
    if a.significand = 0 then some a
    else (a.divTenPow? greatestTenPow).bind (shrink? times)

/-- Multiplies by the power of ten with exponent `k`. A division by a power that is out of range is
made in several steps. -/
def scale? (a : Magnitude) (k : Int) : Option Magnitude :=
  if a.significand = 0 then some a
  else if greatestTenPow < k then none
  else if 0 ≤ k then (tenPow? k.toNat).bind a.mul?
  else
    let down := (-k).toNat
    let times := (down - 1) / greatestTenPow
    (shrink? times a).bind (·.divTenPow? (down - times * greatestTenPow))

/-- The number read from the decimal `n * 10 ^ k`. -/
def ofDecimal? (n : Nat) (k : Int) : Option Magnitude :=
  (round? n 1 0).bind (·.scale? k)

end Magnitude

/-- A finite number with its sign; zero has one too. -/
structure Binary64 where
  negative : Bool
  magnitude : Magnitude
  deriving DecidableEq, Repr, Inhabited

end EnumNames.Decimal
