import EnumNames.Code.Basic
import EnumNames.Digest.Sha256
import EnumNames.Layout

/-!
# The text of emitted code

An expression is written on one line, a statement or an item as layout steps. Parentheses stand in
the code itself, so no precedence is needed here.
-/

namespace EnumNames.Code

open Layout Text

/-- The name of an integer type. -/
def IntType.name : IntType → String
  | ofKind kind => kind.name
  | i128 => "i128"

/-- The sign of an operator. -/
def BinOp.sign : BinOp → String
  | add => "+"
  | sub => "-"
  | div => "/"
  | less => "<"
  | atLeast => ">="
  | atMost => "<="
  | equal => "=="
  | or => "||"

/-- The text of an expression. -/
def Expr.text : Expr → String
  | receiver => "self.0"
  | var name => name
  | int n => toString n
  | typedInt type n => toString n ++ type.name
  | literal s => quoted s
  | cast e type => e.text ++ " as " ++ type.name
  | binary op a b => a.text ++ " " ++ op.sign ++ " " ++ b.text
  | within low high x =>
    "(" ++ toString low ++ "..=" ++ toString high ++ ").contains(&" ++ x ++ ")"
  | length array => array ++ ".len()"
  | element array i => array ++ "[" ++ i.text ++ "]"
  | slice s low high => "&" ++ s ++ "[" ++ low.text ++ ".." ++ high.text ++ "]"
  | wrappingMul x n => x ++ ".wrapping_mul(" ++ toString n ++ ")"
  | paren e => "(" ++ e.text ++ ")"
  | path reference => reference
  | someOf e => "Some(" ++ e.text ++ ")"
  | none => "None"
  | writeText e => "f.write_str(" ++ e.text ++ ")"
  | writeNumber template e => "write!(f, " ++ quoted template ++ ", " ++ e.text ++ ")"

/-- The pattern of a 32-bit number, with eight hexadecimal digits. -/
def wordPattern (n : UInt32) : String :=
  "0x" ++ String.ofList (Digest.Sha256.hexWord n)

/-- One arm of a comparison of texts. -/
def orderArm (ordering action : String) : Step :=
  .line ("::core::cmp::Ordering::" ++ ordering ++ " => " ++ action ++ ",")

mutual

/-- The layout of a statement. -/
def Stmt.steps : Stmt → List Step
  | .comment s => [.line ("// " ++ s)]
  | .blank => [.blank]
  | .bind x e => [.line ("let " ++ x ++ " = " ++ e.text ++ ";")]
  | .bindVar x type e =>
    [.line ("let mut " ++ x ++ ": " ++ type.name ++ " = " ++ e.text ++ ";")]
  | .bindVars x y e₁ e₂ =>
    [.line ("let (mut " ++ x ++ ", mut " ++ y ++ ") = (" ++ e₁.text ++ ", " ++ e₂.text ++ ");")]
  | .choose x branches other =>
    branchSteps x true branches ++ [.reopen "\x7d else \x7b"] ++ blockSteps other
      ++ [.closeWith "\x7d;"]
  | .select x subject arms y other =>
    [.openBlock ("let " ++ x ++ " = match " ++ subject.text)]
      ++ arms.map (fun (n, e) => .line (toString n ++ " => " ++ e.text ++ ","))
      ++ [.line (y ++ " => return " ++ other.text ++ ","), .closeWith "\x7d;"]
  | .assign x e => [.line (x ++ " = " ++ e.text ++ ";")]
  | .mix x e => [.line (x ++ " ^= " ++ e.text ++ ";")]
  | .when c body => [.openBlock ("if " ++ c.text)] ++ blockSteps body ++ [.close]
  | .loop c body => [.openBlock ("while " ++ c.text)] ++ blockSteps body ++ [.close]
  | .eachByte x s body =>
    [.openBlock ("for &" ++ x ++ " in " ++ s ++ ".as_bytes()")] ++ blockSteps body ++ [.close]
  | .switch x arms =>
    [.openBlock ("match " ++ x)] ++ armSteps arms ++ [.line "_ => \x7b\x7d", .close]
  | .order a b found less greater =>
    [.openBlock ("match " ++ a ++ ".cmp(" ++ b ++ ")"),
      orderArm "Equal" ("return " ++ found.text),
      orderArm "Less" (less.1 ++ " = " ++ less.2.text),
      orderArm "Greater" (greater.1 ++ " = " ++ greater.2.text),
      .close]
  | .mapLookup typeName entries x =>
    [.line ("static LOOKUP: ::std::sync::OnceLock<::std::collections::HashMap<&'static str, "
        ++ typeName ++ ">> ="),
      .indent, .line "::std::sync::OnceLock::new();", .dedent,
      .line "LOOKUP", .indent, .openBlock ".get_or_init(||", .line "[", .indent]
      ++ entries.map (fun (name, reference) =>
        .line ("(" ++ quoted name ++ ", " ++ reference ++ "),"))
      ++ [.dedent, .line "]", .line ".into_iter()", .line ".collect()", .closeWith "\x7d)",
        .line (".get(" ++ x ++ ")"), .line ".copied()", .dedent]
  | .ret e => [.line ("return " ++ e.text ++ ";")]
  | .result e => [.line e.text]

/-- The layout of statements in a row. -/
def blockSteps : List Stmt → List Step
  | [] => []
  | s :: rest => s.steps ++ blockSteps rest

/-- The conditional blocks that give `x` its value, each but the first after `else`. -/
def branchSteps (x : String) (isFirst : Bool) : List (Expr × List Stmt) → List Step
  | [] => []
  | (c, body) :: rest =>
    (if isFirst then .openBlock ("let " ++ x ++ " = if " ++ c.text)
      else .reopen ("\x7d else if " ++ c.text ++ " \x7b"))
      :: blockSteps body ++ branchSteps x false rest

/-- The blocks of numbered arms. -/
def armSteps : List (UInt32 × List Stmt) → List Step
  | [] => []
  | (n, body) :: rest =>
    .openBlock (wordPattern n ++ " =>") :: blockSteps body ++ [.close] ++ armSteps rest

end

/-- The text of the right side of an assertion; what is no plain literal stands in parentheses, so
that its operators cannot regroup with the subtraction. -/
def GuardOperand.text : GuardOperand → String
  | literal s => s
  | expression s => "(" ++ s ++ ")"

/-- The line of an assertion. -/
def Assertion.line (a : Assertion) : Step :=
  .line ("assert!(" ++ a.reference ++ ".0 - " ++ a.operand.text ++ " == 0);")

/-- The attribute before items whose names are not in capitals. -/
def globalAttribute : Step :=
  .line "#[allow(non_upper_case_globals)]"

/-- The layout of an item. -/
def Item.steps : Item → List Step
  | blank => [.blank]
  | blob name s => [globalAttribute, .line ("const " ++ name ++ ": &str = " ++ quoted s ++ ";")]
  | offsets name width values =>
    [globalAttribute,
      .line ("static " ++ name ++ ": [" ++ width.name ++ "; " ++ toString values.length ++ "] = ["
        ++ String.intercalate ", " (values.map toString) ++ "];")]
  | constants name typeName references =>
    [globalAttribute,
      .line ("static " ++ name ++ ": [" ++ typeName ++ "; " ++ toString references.length
        ++ "] = ["),
      .indent]
      ++ references.map (fun reference => .line (reference ++ ","))
      ++ [.dedent, .line "];"]
  | guard assertions =>
    [.openBlock "const _: () =",
      .line "// A failed constant evaluation here means the constant values have changed.",
      .line "// Re-run the stringer command to generate them again."]
      ++ assertions.map Assertion.line ++ [.closeWith "\x7d;"]
  | display typeName body =>
    [.openBlock ("impl ::core::fmt::Display for " ++ typeName),
      .openBlock
        "fn fmt(&self, f: &mut ::core::fmt::Formatter<'_>) -> ::core::fmt::Result"]
      ++ blockSteps body ++ [.close, .close]
  | lookup name typeName body =>
    [.line "#[allow(non_snake_case)]",
      .openBlock ("pub fn " ++ name ++ "(name: &str) -> Option<" ++ typeName ++ ">")]
      ++ blockSteps body ++ [.close]

/-- The layout of items in a row. -/
def itemsSteps (items : List Item) : List Step :=
  items.flatMap Item.steps

/-- The text of items in a row. -/
def itemsText (items : List Item) : String :=
  render (itemsSteps items)

/-! ## Equations -/

section Equations

-- The equations of the printer are made here once, instead of in every proof that asks for them.
attribute [local simp] Expr.text Stmt.steps blockSteps branchSteps armSteps

end Equations

end EnumNames.Code
