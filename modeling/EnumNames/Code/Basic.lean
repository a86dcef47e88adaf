import EnumNames.Constant
import EnumNames.NameTable

/-!
# Emitted code

The code written for an enumeration is a value before it is a text: a list of items, whose bodies
are statements over a small expression language. It has what the emitted code needs and no more:
integers of a few types, texts that are sliced by bytes, arrays of offsets and of constants, and the
two calls that write to a formatter.
-/

namespace EnumNames.Code

/-- An integer type of emitted code. -/
inductive IntType
  | ofKind (kind : Kind)
  | i128
  deriving DecidableEq, Repr

namespace IntType

abbrev u8 : IntType := ofKind .u8

abbrev u32 : IntType := ofKind .u32

abbrev usize : IntType := ofKind .usize

end IntType

/-- A binary operator. -/
inductive BinOp
  | add | sub | div
  | less | atLeast | atMost | equal
  | or
  deriving DecidableEq, Repr

/-- An expression. -/
inductive Expr
  /-- The number inside the enumeration value that is being shown. -/
  | receiver
  /-- A variable, a constant text or an array. -/
  | var (name : String)
  /-- A decimal literal; its type is the one that its surroundings require. -/
  | int (n : Int)
  /-- A literal with its type written out. -/
  | typedInt (type : IntType) (n : Nat)
  /-- A text literal. -/
  | literal (s : String)
  /-- Conversion to an integer type. -/
  | cast (e : Expr) (type : IntType)
  | binary (op : BinOp) (a b : Expr)
  /-- Whether the number in a variable lies in a closed range. -/
  | within (low high : Int) (x : String)
  /-- The number of elements of an array. -/
  | length (array : String)
  /-- An element of an array. -/
  | element (array : String) (i : Expr)
  /-- The bytes of a text from `low` up to `high`. -/
  | slice (text : String) (low high : Expr)
  /-- Multiplies a variable modulo the width of its type. -/
  | wrappingMul (x : String) (n : Nat)
  | paren (e : Expr)
  /-- The constant that an expression of the user denotes. -/
  | path (reference : String)
  | someOf (e : Expr)
  | none
  /-- Writes a text to the formatter. -/
  | writeText (e : Expr)
  /-- Writes a text with a number in its only pair of braces. -/
  | writeNumber (template : String) (e : Expr)
  deriving DecidableEq, Repr

/-- A statement. -/
inductive Stmt
  | comment (s : String)
  | blank
  /-- Names the value of an expression. -/
  | bind (x : String) (e : Expr)
  /-- Introduces a variable with its type. -/
  | bindVar (x : String) (type : IntType) (e : Expr)
  /-- Introduces two variables. -/
  | bindVars (x y : String) (e₁ e₂ : Expr)
  /-- Names the result of the first branch whose condition holds, else of the last block. -/
  | choose (x : String) (branches : List (Expr × List Stmt)) (other : List Stmt)
  /-- Names the value of the arm whose number the subject equals; with no such arm, names the
  subject `y` and leaves the function. -/
  | select (x : String) (subject : Expr) (arms : List (Int × Expr)) (y : String) (other : Expr)
  | assign (x : String) (e : Expr)
  /-- Combines a variable with a number by exclusive or. -/
  | mix (x : String) (e : Expr)
  | when (condition : Expr) (body : List Stmt)
  | loop (condition : Expr) (body : List Stmt)
  /-- Runs the body for each byte of a text. -/
  | eachByte (x : String) (text : String) (body : List Stmt)
  /-- Runs the arm of a number, if there is one. -/
  | switch (x : String) (arms : List (UInt32 × List Stmt))
  /-- Compares two texts: leaves the function if they are equal, else assigns to a variable. -/
  | order (a b : String) (found : Expr) (less greater : String × Expr)
  /-- Looks a text up in a map that is built once. -/
  | mapLookup (typeName : String) (entries : List (String × String)) (x : String)
  /-- Leaves the function. -/
  | ret (e : Expr)
  /-- The result of the block or function that ends here. -/
  | result (e : Expr)
  deriving Repr

/-- The right side of an assertion of the guard. -/
inductive GuardOperand
  /-- A plain decimal literal. -/
  | literal (text : String)
  /-- Any other expression. -/
  | expression (text : String)
  deriving DecidableEq, Repr

/-- One assertion of the guard: the constant still has the value of the operand. -/
structure Assertion where
  reference : String
  operand : GuardOperand
  deriving DecidableEq, Repr

/-- A top-level item. -/
inductive Item
  | blank
  /-- A constant text. -/
  | blob (name : String) (s : String)
  /-- An array of offsets. -/
  | offsets (name : String) (width : IndexWidth) (values : List Nat)
  /-- An array of constants of the enumeration. -/
  | constants (name : String) (typeName : String) (references : List String)
  /-- The block that is refused by the compiler once a constant has changed. -/
  | guard (assertions : List Assertion)
  /-- The function that shows a value of the enumeration. -/
  | display (typeName : String) (body : List Stmt)
  /-- The function from a name to a value of the enumeration. -/
  | lookup (name : String) (typeName : String) (body : List Stmt)
  deriving Repr

/-- The identifier of an item made for a type, as in `_Pill_name_2`. -/
def itemName (typeName item suffix : String) : String :=
  "_" ++ typeName ++ "_" ++ item ++ suffix

/-- The identifier that an item introduces, if it has one. -/
def Item.name? : Item → Option String
  | blob name _ | offsets name _ _ | constants name _ _ | lookup name _ _ => some name
  | blank | guard _ | display _ _ => none

/-- Name `i` of a table: the slice of a blob between two offsets of an array. -/
def Expr.tableSlice (blob index : String) (i : String) : Expr :=
  .slice blob (.cast (.element index (.var i)) .usize)
    (.cast (.element index (.binary .add (.var i) (.int 1))) .usize)

/-- The items that hold a name table. -/
def Item.ofTable (blob index : String) (table : NameTable) : List Item :=
  [.blob blob table.blob, .offsets index table.width table.offsets]

end EnumNames.Code
