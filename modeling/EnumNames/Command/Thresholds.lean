import EnumNames.Text.Blank
import EnumNames.Text.Pieces
import EnumNames.Text.Quoted

/-!
# Numbers and thresholds of the command line

A count is written with digits, after at most one plus sign, and fits 64 bits. A pair of thresholds
is two counts with a comma between them; blanks around a count do not matter.
-/

namespace EnumNames.Command

open Text

/-- Why a text is no count. -/
inductive CountError
  | empty
  | invalidDigit
  | tooLarge
  deriving DecidableEq, Repr

/-- The error in words. -/
def CountError.message : CountError → String
  | empty => "cannot parse integer from empty string"
  | invalidDigit => "invalid digit found in string"
  | tooLarge => "number too large to fit in target type"

/-- Reads digits after a number `n`; of two errors the first one in the text is reported. -/
def readDigits (n : Nat) : List Char → Except CountError Nat
  | [] => .ok n
  | c :: cs =>
    if c.isDigit then
      let next := 10 * n + (c.toNat - '0'.toNat)
      if next < 0x10000000000000000 then readDigits next cs else .error .tooLarge
    else .error .invalidDigit

/-- Reads a count. -/
def readCount : List Char → Except CountError Nat
  | [] => .error .empty
  | ['+'] => .error .invalidDigit
  | '+' :: digits => readDigits 0 digits
  | digits => readDigits 0 digits

/-- Why a text is no pair of thresholds. -/
inductive ThresholdsError
  | noComma (text : String)
  | low (e : CountError)
  | high (e : CountError)
  deriving DecidableEq, Repr

/-- The error in words. -/
def ThresholdsError.message : ThresholdsError → String
  | noComma text => "expected LO,HI, got " ++ quoted text
  | low e => "LO: " ++ e.message
  | high e => "HI: " ++ e.message

/-- Reads a pair of thresholds; the first comma separates them. -/
def readThresholds (text : String) : Except ThresholdsError (Nat × Nat) := do
  match cut? ',' text.toList with
  | none => .error (.noComma text)
  | some (low, high) =>
    let low ← (readCount (trimChars low)).mapError .low
    let high ← (readCount (trimChars high)).mapError .high
    return (low, high)

end EnumNames.Command
