import EnumNames.Code.Basic

/-!
# The consistency guard

The guard asserts for every declared constant, repeated values included, that its value is still the
one recorded. The recorded value is the constant's canonical text without the blanks around it, or
its decimal literal if nothing is left.
-/

namespace EnumNames.Guard

/-- Whether a text is a plain decimal literal: at most one minus sign, then a digit, then digits and
underscores. -/
def isDecimalLiteral (text : List Char) : Bool :=
  let digits := match text with
    | '-' :: rest => rest
    | _ => text
  match digits with
  | [] => false
  | c :: _ => c.isDigit && digits.all fun c => c.isDigit || c == '_'

/-- What the guard compares a constant with. -/
def operand (c : Constant) : Code.GuardOperand :=
  let text := Text.trim c.canonical
  if text.isEmpty then .literal c.decimal
  else if isDecimalLiteral text.toList then .literal text
  else .expression text

/-- The assertion for a constant. -/
def assertion (c : Constant) : Code.Assertion :=
  ⟨c.reference, operand c⟩

/-- The guard of an enumeration with these constants. -/
def item (constants : List Constant) : Code.Item :=
  .guard (constants.map assertion)

end EnumNames.Guard
