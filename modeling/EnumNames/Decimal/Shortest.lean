import EnumNames.Decimal.Binary64

/-!
# Shortest decimals

The shortest decimal that reads back as a given binary number. The reals that round to the number
are an interval around it; a decimal with digits `d` and exponent `k` is the point `d * 10 ^ k`.
Grids of points get finer until one has a point in the interval, which is then next to the number
itself: only its two neighbours on the grid are tested, the nearer one first.

All comparisons are made in units of a quarter of the last binary place, in natural numbers.
-/

namespace EnumNames.Decimal

/-- The decimal `digits * 10 ^ exponent`. -/
structure Scaled where
  digits : Nat
  exponent : Int
  deriving DecidableEq, Repr, Inhabited

namespace Magnitude

/-- The number in quarters of its last place. -/
def quarters (a : Magnitude) : Nat :=
  4 * a.significand

/-- The upper end of the interval, in quarters. -/
def upper (a : Magnitude) : Nat :=
  a.quarters + 2

/-- The lower end of the interval, in quarters. Below a power of two the numbers are twice as
dense. -/
def lower (a : Magnitude) : Nat :=
  if a.significand = twoPow 52 ∧ leastExponent < a.exponent then a.quarters - 1 else a.quarters - 2

/-- A pair `(x, y)` such that a step of `10 ^ k` is `x / y` quarters of the last place. -/
def step (a : Magnitude) (k : Int) : Nat × Nat :=
  let e := a.exponent - 2
  (tenPow k.toNat * twoPow (-e).toNat, tenPow (-k).toNat * twoPow e.toNat)

/-- Whether a point `d` of a grid rounds to the number; the ends of the interval do so if the
significand is even. -/
def isReachedFrom (a : Magnitude) (d : Nat) (grid : Nat × Nat) : Bool :=
  let point := d * grid.1
  if a.significand % 2 = 0 then
    a.lower * grid.2 ≤ point ∧ point ≤ a.upper * grid.2
  else
    a.lower * grid.2 < point ∧ point < a.upper * grid.2

/-- The point of a grid that reads back as the number, if there is one, and of two the nearer. -/
def pointOn? (a : Magnitude) (k : Int) : Option Nat :=
  let grid := a.step k
  let value := a.quarters * grid.2
  let below := value / grid.1
  let above := below + 1
  let below? := if a.isReachedFrom below grid then some below else none
  let above? := if a.isReachedFrom above grid then some above else none
  let toBelow := value - below * grid.1
  let toAbove := above * grid.1 - value
  if toBelow < toAbove ∨ (toBelow = toAbove ∧ below % 2 = 0) then below? <|> above?
  else above? <|> below?

/-- The exponent of the first digit of a number that is not zero. -/
def leadingExponent (a : Magnitude) : Int :=
  let scaled := a.significand * tenPow 330 * twoPow a.exponent.toNat / twoPow (-a.exponent).toNat
  ((Nat.toDigits 10 scaled).length : Int) - 331

end Magnitude

/-- Drops the zeros at the end of the digits; `fuel` bounds their number. -/
def Scaled.dropZeros : Nat → Scaled → Scaled
  | 0, x => x
  | fuel + 1, ⟨d, k⟩ => if d % 10 = 0 then dropZeros fuel ⟨d / 10, k + 1⟩ else ⟨d, k⟩

/-- The shortest decimal that reads back as a number; zero is the digit zero. -/
def Magnitude.shortest (a : Magnitude) : Scaled :=
  if a.significand = 0 then ⟨0, 0⟩
  else
    let e := a.leadingExponent
    let found := (List.range 17).findSome? fun (i : Nat) =>
      (a.pointOn? (e - i)).map fun d => (⟨d, e - i⟩ : Scaled)
    (found.getD ⟨a.significand, a.exponent⟩).dropZeros 17

end EnumNames.Decimal
