import EnumNames.Text.Blank

/-!
# Integer kinds

The ten integer types an enumeration may be built on. The two kinds of pointer size count as 64 bits
wide.
-/

namespace EnumNames

/-- The integer type underneath an enumeration. -/
inductive Kind
  | i8 | i16 | i32 | i64 | isize
  | u8 | u16 | u32 | u64 | usize
  deriving DecidableEq, Repr, Inhabited

namespace Kind

/-- Every kind, in the order of their declaration. -/
def all : List Kind :=
  [.i8, .i16, .i32, .i64, .isize, .u8, .u16, .u32, .u64, .usize]

/-- The name of a kind in source text. -/
def name : Kind → String
  | .i8 => "i8" | .i16 => "i16" | .i32 => "i32" | .i64 => "i64" | .isize => "isize"
  | .u8 => "u8" | .u16 => "u16" | .u32 => "u32" | .u64 => "u64" | .usize => "usize"

/-- The kind with exactly this name. -/
def named? (text : String) : Option Kind :=
  all.find? fun kind => kind.name = text

/-- The kind that a text names once blanks around it are dropped. -/
def ofText? (text : String) : Option Kind :=
  named? (Text.trim text)

/-- Whether values of the kind may be negative. -/
def isSigned : Kind → Bool
  | .i8 | .i16 | .i32 | .i64 | .isize => true
  | .u8 | .u16 | .u32 | .u64 | .usize => false

/-- Width in bits. -/
def bits : Kind → Nat
  | .i8 | .u8 => 8
  | .i16 | .u16 => 16
  | .i32 | .u32 => 32
  | .i64 | .u64 | .isize | .usize => 64

/-- The number of values of the kind. -/
def count (kind : Kind) : Nat :=
  Nat.pow 2 kind.bits

/-- Least value of the kind. -/
def least (kind : Kind) : Int :=
  if kind.isSigned then -(kind.count / 2) else 0

/-- Greatest value of the kind. -/
def greatest (kind : Kind) : Int :=
  if kind.isSigned then kind.count / 2 - 1 else kind.count - 1

/-- Whether a number is a value of the kind. -/
def contains (kind : Kind) (n : Int) : Bool :=
  kind.least ≤ n && n ≤ kind.greatest

theorem named?_name (kind : Kind) : named? kind.name = some kind := by
  cases kind <;> decide

end Kind

end EnumNames
