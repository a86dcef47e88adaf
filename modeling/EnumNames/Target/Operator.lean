import EnumNames.Target.Ahead

/-!
# Operators

The operators between two operands with how tightly they bind. An operator is read from the signs
ahead, and one that another begins with stands after it in the table.
-/

namespace EnumNames.Target

/-- How tightly an operator binds, from the loosest to the tightest. -/
inductive Level
  | jump
  | assign
  | range
  | or
  | and
  | letBinding
  | compare
  | bitOr
  | bitXor
  | bitAnd
  | shift
  | sum
  | product
  | cast
  deriving DecidableEq, Repr

/-- The place of a level in the order. -/
def Level.rank : Level → Nat
  | jump => 0
  | assign => 1
  | range => 2
  | or => 3
  | and => 4
  | letBinding => 5
  | compare => 6
  | bitOr => 7
  | bitXor => 8
  | bitAnd => 9
  | shift => 10
  | sum => 11
  | product => 12
  | cast => 13

/-- The lowest rank of the operators in the right operand of an operator: assignments group to the
right, all others to the left. -/
def Level.rightRank : Level → Nat
  | assign => assign.rank
  | l => l.rank + 1

/-- The operators between two operands, except plain assignment. -/
def operators : List (List Sign × Level) := [
  ([.plus, .eq], .assign), ([.minus, .eq], .assign), ([.star, .eq], .assign),
  ([.slash, .eq], .assign), ([.percent, .eq], .assign), ([.caret, .eq], .assign),
  ([.amp, .eq], .assign), ([.pipe, .eq], .assign), ([.less, .less, .eq], .assign),
  ([.greater, .greater, .eq], .assign), ([.amp, .amp], .and), ([.pipe, .pipe], .or),
  ([.less, .less], .shift), ([.greater, .greater], .shift), ([.eq, .eq], .compare),
  ([.less, .eq], .compare), ([.bang, .eq], .compare), ([.greater, .eq], .compare),
  ([.plus], .sum), ([.minus], .sum), ([.star], .product), ([.slash], .product),
  ([.percent], .product), ([.caret], .bitXor), ([.amp], .bitAnd), ([.pipe], .bitOr),
  ([.less], .compare), ([.greater], .compare)]

/-- The operator that stands ahead: how many signs follow its first one, and its level. -/
def operator? (ts : List Token) : Option (Nat × Level) :=
  (operators.find? fun o => begins o.1 ts).map fun o => (o.1.length - 1, o.2)

end EnumNames.Target
