import EnumNames.Decimal.Shortest

/-!
# Numbers of a document

A number is an integer as long as it is written as one and fits 64 bits; every other number is
binary floating point.

* `Number.text` writes a number. A fraction keeps at least one digit after the point from `1e-5` up
  to `1e16`; beyond these it has an exponent with a sign.
-/

namespace EnumNames.Json

open Decimal

/-- A number of a document. -/
inductive Number
  | integer (n : Int)
  | float (x : Binary64)
  deriving DecidableEq, Repr

/-- The digits of a natural number. -/
def digits (n : Nat) : List Char :=
  Nat.toDigits 10 n

/-- A decimal without an exponent: the point stands after the digit for ones. -/
def positional (x : Scaled) : List Char :=
  let ds := digits x.digits
  if 0 ≤ x.exponent then ds ++ List.replicate x.exponent.toNat '0' ++ ['.', '0']
  else
    let places := (-x.exponent).toNat
    let padded := List.replicate (places + 1 - ds.length) '0' ++ ds
    padded.take (padded.length - places) ++ '.' :: padded.drop (padded.length - places)

/-- A decimal with one digit before the point and the exponent `e` of that digit. -/
def scientific (x : Scaled) (e : Int) : List Char :=
  let mantissa := match digits x.digits with
    | first :: second :: rest => first :: '.' :: second :: rest
    | ds => ds
  mantissa ++ 'e' :: (if e < 0 then '-' else '+') :: digits e.natAbs

/-- The text of a floating-point number. -/
def floatText (x : Binary64) : String :=
  let d := x.magnitude.shortest
  let e := d.exponent + (digits d.digits).length - 1
  let unsigned := if -5 ≤ e ∧ e < 16 then positional d else scientific d e
  String.ofList (if x.negative then '-' :: unsigned else unsigned)

/-- The text of a number. -/
def Number.text : Number → String
  | integer n => toString n
  | float x => floatText x

end EnumNames.Json
