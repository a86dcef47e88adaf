import EnumNames.Json.Reader

/-!
# Numbers as they are written

A number is written as an optional minus sign, whole digits without a leading zero, optional digits
after a point, and an optional exponent. Reading takes these parts off the document first and
evaluates them then.

* `readNumeral` takes the parts; `Numeral.value?` evaluates them.
* Digits are gathered in 64 bits: a whole digit that does not fit raises the exponent instead, as do
  all that follow it, and a digit after the point that does not fit is dropped with the rest.
-/

namespace EnumNames.Json

/-- The parts of a number as it is written. -/
structure Numeral where
  negative : Bool
  whole : List Nat
  fraction : List Nat
  exponent : Option Int
  deriving DecidableEq, Repr

/-! ## Taking the parts -/

/-- Whether a byte is a digit. -/
def isDigitByte (b : UInt8) : Bool :=
  0x30 ≤ b && b ≤ 0x39

/-- The value of a digit. -/
def digitValue (b : UInt8) : Nat :=
  b.toNat - 0x30

/-- Passes all digits that a document begins with. -/
def passDigits (s : List UInt8) : After s :=
  ⟨s.dropWhile isDigitByte, length_dropWhile_le isDigitByte s⟩

/-- The values of all digits that a document begins with. -/
def leadingDigits (s : List UInt8) : List Nat :=
  (s.takeWhile isDigitByte).map digitValue

/-- Takes at least one digit; `atEnd` is the error of a document that ends instead. -/
def takeSomeDigits (atEnd : Error) : Reader (List Nat)
  | [] => .error atEnd
  | b :: rest =>
    if isDigitByte b then
      .ok ((Taken.ofFirst (leadingDigits (b :: rest)) b rest).thenPass (passDigits rest))
    else breach .badNumber

/-- The number of some digits. -/
def ofDigits (ds : List Nat) : Nat :=
  ds.foldl (fun n d => 10 * n + d) 0

/-- Takes the whole digits. A zero stands alone. -/
def takeWhole (atEnd : Error) : Reader (List Nat) := fun s => do
  let t ← takeSomeDigits atEnd s
  if t.value.head? = some 0 ∧ t.value ≠ [0] then breach .badNumber else return t

/-- Takes the digits after a point, if there is one. -/
def takeFraction (atEnd : Error) (s : List UInt8) : Except Error (List Nat × After s) :=
  match s with
  | b :: rest =>
    if Char.ofUInt8 b = '.' then
      (takeSomeDigits atEnd rest).map fun t => (t.value, t.after.cons b)
    else .ok ([], .nothing (b :: rest))
  | [] => .ok ([], .nothing [])

/-- Takes an exponent after its letter. -/
def takeExponentDigits (atEnd : Error) : Reader Int
  | [] => .error atEnd
  | b :: rest =>
    if Char.ofUInt8 b = '-' then
      (takeSomeDigits atEnd rest).map fun t => (t.map fun ds => -(ofDigits ds : Int)).cons b
    else if Char.ofUInt8 b = '+' then
      (takeSomeDigits atEnd rest).map fun t => (t.map fun ds => (ofDigits ds : Int)).cons b
    else (takeSomeDigits atEnd (b :: rest)).map fun t => t.map fun ds => (ofDigits ds : Int)

/-- Takes an exponent, if there is one. -/
def takeExponent (atEnd : Error) (s : List UInt8) : Except Error (Option Int × After s) :=
  match s with
  | b :: rest =>
    if Char.ofUInt8 b = 'e' ∨ Char.ofUInt8 b = 'E' then
      (takeExponentDigits atEnd rest).map fun t => (some t.value, t.after.cons b)
    else .ok (none, .nothing (b :: rest))
  | [] => .ok (none, .nothing [])

/-- Takes a number without its sign. -/
def takeUnsigned (atEnd : Error) (negative : Bool) : Reader Numeral := fun s => do
  let whole ← takeWhole atEnd s
  let (fraction, afterFraction) ← takeFraction atEnd whole.rest
  let (exponent, afterExponent) ← takeExponent atEnd afterFraction.rest
  return (whole.map fun digits => ⟨negative, digits, fraction, exponent⟩).thenPass
    (afterFraction.thenPass afterExponent)

/-- Takes a number; `atEnd` is the error of a document that ends where a digit is due. -/
def takeNumeral (atEnd : Error) : Reader Numeral
  | [] => .error atEnd
  | b :: rest =>
    if Char.ofUInt8 b = '-' then (takeUnsigned atEnd true rest).map (.cons b)
    else takeUnsigned atEnd false (b :: rest)

/-! ## Evaluation -/

/-- Adds digits to `n` as long as the result fits 64 bits; also the number of digits left over. -/
def gather (n : Nat) : List Nat → Nat × Nat
  | [] => (n, 0)
  | d :: ds =>
    if 10 * n + d < 0x10000000000000000 then gather (10 * n + d) ds else (n, ds.length + 1)

namespace Numeral

/-- The floating-point number of digits and an exponent, unless it is too large. -/
def float? (negative : Bool) (n : Nat) (exponent : Int) : Except Error Number :=
  match Decimal.Magnitude.ofDecimal? n exponent with
  | some magnitude => .ok (.float ⟨negative, magnitude⟩)
  | none => breach .numberTooLarge

/-- The number that is written. Without point and exponent it is an integer, if it fits 64 bits;
zero with a sign is not. -/
def value? (x : Numeral) : Except Error Number :=
  let (n, raised) := gather 0 x.whole
  if x.fraction = [] ∧ x.exponent = none ∧ raised = 0 then
    if !x.negative then .ok (.integer n)
    else if n = 0 ∨ 0x8000000000000000 < n then float? true n 0
    else .ok (.integer (-n))
  else
    let (m, dropped) := gather n x.fraction
    float? x.negative m ((x.exponent.getD 0) + raised - (x.fraction.length - dropped))

end Numeral

/-- Reads a number. -/
def readNumber : Reader Number := fun s => do
  let t ← takeNumeral (.ended .value) s
  let x ← t.value.value?
  return t.map fun _ => x

/-- Passes a number that nobody asks for, whatever its size. -/
def skipNumber : Reader Unit := fun s =>
  (takeNumeral (.malformed .badNumber) s).map (·.map fun _ => ())

end EnumNames.Json
