import EnumNames.Code.Scope
import EnumNames.Text.Pieces

/-!
# What emitted code does

Emitted code is run over numbers that have a type, texts and constants. Where the language refuses
the code or stops with a panic, there is no result: a number that is not of its type, a conversion
that would change a number, a place outside an array, a slice that cuts a character, operands of two
types, a name that is to lead to a constant and leads to something nearer. Pointers are 64 bits
wide.

* `Expr.eval?` is the value of an expression, `Expr.answer?` what a function answers with it: a
  value, or the text written to the formatter.
* `Stmt.run?` and `runStmts` run statements; a `Flow` tells how they end.
* `show?` is the text that items show for a number, `lookUp?` the constant they find for a name.
-/

namespace EnumNames.Code

/-! ## Numbers -/

namespace IntType

/-- Whether a number is a value of the type. -/
def contains : IntType → Int → Bool
  | ofKind kind, n => kind.contains n
  | i128, n =>
    -0x80000000000000000000000000000000 ≤ n && n < 0x80000000000000000000000000000000

/-- The value of the type that is equal to a number modulo its width. -/
def wrap : IntType → Int → Int
  | ofKind kind, n => if kind.isSigned then n.bmod kind.count else n % kind.count
  | i128, n => n.bmod 0x100000000000000000000000000000000

end IntType

/-- The type of the elements of an array of offsets. -/
def elementType : IndexWidth → IntType
  | .u8 => .u8
  | .u16 => .ofKind .u16
  | .u32 => .u32

/-! ## Values -/

/-- The value of an expression. -/
inductive Val
  /-- A literal that takes the type of what it meets. -/
  | literal (n : Int)
  | number (type : IntType) (n : Int)
  | truth (b : Bool)
  | text (s : String)
  /-- The constant that a path denotes. -/
  | constant (reference : String)
  /-- A constant, or none. -/
  | choice (reference : Option String)
  deriving DecidableEq, Repr

namespace Val

/-- A number as a value of a type. -/
def number? (type : IntType) (n : Int) : Option Val :=
  if type.contains n then some (number type n) else none

/-- Two numbers of one type; a literal takes the type of the other number. -/
def pair? : Val → Val → Option (IntType × Int × Int)
  | number t m, number t' n => if t = t' then some (t, m, n) else none
  | number t m, literal n => if t.contains n then some (t, m, n) else none
  | literal m, number t n => if t.contains m then some (t, m, n) else none
  | _, _ => none

/-- The value as a number of a type. -/
def ofType? (type : IntType) : Val → Option Val
  | number t n => if t = type then some (number t n) else none
  | literal n => number? type n
  | _ => none

/-- Conversion to a type, which must not change the number. -/
def cast? (type : IntType) : Val → Option Val
  | number _ n => number? type n
  | _ => none

/-- The value as a place in an array or a text. -/
def place? (v : Val) : Option Nat :=
  match v.ofType? .usize with
  | some (number _ n) => some n.toNat
  | _ => none

/-- Exclusive or of numbers that are not negative. -/
def mix? (v w : Val) : Option Val :=
  match v.pair? w with
  | some (t, m, n) => if 0 ≤ m ∧ 0 ≤ n then number? t ↑(m.toNat ^^^ n.toNat) else none
  | none => none

end Val

namespace BinOp

/-- The result of an operator for two numbers of a type. -/
def result? (op : BinOp) (type : IntType) (m n : Int) : Option Val :=
  match op with
  | add => Val.number? type (m + n)
  | sub => Val.number? type (m - n)
  | div => if n = 0 then none else Val.number? type (m.tdiv n)
  | less => some (.truth (m < n))
  | atLeast => some (.truth (m ≥ n))
  | atMost => some (.truth (m ≤ n))
  | equal => some (.truth (m = n))
  | or => none

/-- The result of an operator; the right operand of a disjunction need not have a value. -/
def run? (op : BinOp) (a b : Option Val) : Option Val :=
  match op, a, b with
  | or, some (.truth true), _ => some (.truth true)
  | or, some (.truth false), some (.truth b) => some (.truth b)
  | equal, some (.text s), some (.text s') => some (.truth (s == s'))
  | op, some v, some w => (v.pair? w).bind fun (type, m, n) => op.result? type m n
  | _, _, _ => none

end BinOp

/-- A template with a text in place of its only pair of braces. -/
def fill? (template text : String) : Option String :=
  match Text.cut? '\x7b' template.toList with
  | some (before, '\x7d' :: after) =>
    if (before ++ after).any (fun c => c == '\x7b' || c == '\x7d') then none
    else some (String.ofList before ++ text ++ String.ofList after)
  | _ => none

/-! ## Expressions -/

/-- The name of the text or the array that an item holds. -/
def Item.dataName? : Item → Option String
  | blob name _ | offsets name _ _ | constants name _ _ => some name
  | _ => none

/-- The texts and arrays among items. -/
def dataItems (items : List Item) : List Item :=
  items.filter (·.dataName?.isSome)

/-- What code sees besides its variables: the texts and arrays of the file, the type that they are
about, the number inside the value that is being shown, and the constants of the module, by the
paths that lead to them. -/
structure Frame where
  items : List Item
  typeName : String
  receiver : Option Val
  constants : List String

namespace Frame

/-- The text or the array with a name. -/
def item? (f : Frame) (name : String) : Option Item :=
  f.items.find? (·.dataName? == some name)

/-- The constant text with a name. -/
def text? (f : Frame) (name : String) : Option String :=
  match f.item? name with
  | some (.blob _ s) => some s
  | _ => none

/-- The number of elements of an array. -/
def length? (f : Frame) (array : String) : Option Nat :=
  match f.item? array with
  | some (.offsets _ _ values) => some values.length
  | some (.constants _ _ references) => some references.length
  | _ => none

/-- The constant that a path leads to from a place where some names are taken. -/
def constant? (f : Frame) (taken : List String) (reference : String) : Option Val :=
  if reference ∈ f.constants ∧ reference ∉ taken then some (.constant reference) else none

/-- An element of an array. -/
def element? (f : Frame) (array : String) (i : Nat) : Option Val :=
  match f.item? array with
  | some (.offsets _ width values) => values[i]?.map fun n : Nat => .number (elementType width) n
  | some (.constants _ typeName references) =>
    if typeName = f.typeName then references[i]?.bind (f.constant? []) else none
  | _ => none

end Frame

/-- A variable with its value. -/
structure Cell where
  name : String
  isMut : Bool
  value : Val

/-- The variables in scope, the last one first. -/
abbrev Env := List Cell

namespace Env

/-- The names of the variables in scope. -/
def names (env : Env) : List String :=
  env.map Cell.name

/-- The value of a variable. -/
def value? (env : Env) (x : String) : Option Val :=
  (env.find? (·.name == x)).map Cell.value

/-- Changes the number in a variable, which keeps its type. -/
def assign? : Env → String → Val → Option Env
  | [], _, _ => none
  | cell :: env, x, v =>
    if cell.name == x then
      match cell.isMut, cell.value with
      | true, .number type _ => (v.ofType? type).map fun v => { cell with value := v } :: env
      | _, _ => none
    else (assign? env x v).map (cell :: ·)

/-- The variables that were in scope when there were `size` of them. -/
def leave (env : Env) (size : Nat) : Env :=
  env.drop (env.length - size)

end Env

namespace Expr

/-- The value of an expression. -/
def eval? (f : Frame) (env : Env) : Expr → Option Val
  | receiver => f.receiver
  | var x => env.value? x <|> (f.text? x).map .text
  | int n => some (.literal n)
  | typedInt type n => Val.number? type n
  | literal s => some (.text s)
  | cast e type => (e.eval? f env).bind (Val.cast? type)
  | binary op a b => op.run? (a.eval? f env) (b.eval? f env)
  | within low high x =>
    match env.value? x with
    | some (.number type n) =>
      if type.contains low && type.contains high then some (.truth (low ≤ n && n ≤ high))
      else Option.none
    | _ => Option.none
  | length array => (f.length? array).bind fun n => Val.number? .usize n
  | element array i => ((i.eval? f env).bind Val.place?).bind (f.element? array)
  | slice text low high =>
    match (low.eval? f env).bind Val.place?, (high.eval? f env).bind Val.place? with
    | some low, some high => ((f.text? text).bind (byteSlice? · low high)).map .text
    | _, _ => Option.none
  | wrappingMul x n =>
    match env.value? x with
    | some (.number type m) =>
      if type.contains n then some (.number type (type.wrap (m * n))) else Option.none
    | _ => Option.none
  | paren e => e.eval? f env
  | path reference => f.constant? env.names reference
  | someOf e =>
    match e.eval? f env with
    | some (.constant reference) => some (.choice (some reference))
    | _ => Option.none
  | none => some (.choice Option.none)
  | writeText _ | writeNumber _ _ => Option.none

/-- The truth value of a condition. -/
def truth? (f : Frame) (env : Env) (e : Expr) : Option Bool :=
  match e.eval? f env with
  | some (.truth b) => some b
  | _ => Option.none

end Expr

/-- What a block or function answers. -/
inductive Answer
  | value (v : Val)
  /-- The text that was written to the formatter. -/
  | shown (s : String)
  deriving DecidableEq, Repr

/-- What is answered with an expression. -/
def Expr.answer? (f : Frame) (env : Env) : Expr → Option Answer
  | writeText e =>
    match e.eval? f env with
    | some (.text s) => some (.shown s)
    | _ => Option.none
  | writeNumber template e =>
    match e.eval? f env with
    | some (.number _ n) => (fill? template (toString n)).map .shown
    | _ => Option.none
  | e => (e.eval? f env).map .value

/-! ## Statements -/

/-- How statements end. -/
inductive Flow
  /-- What follows is run next. -/
  | next (env : Env)
  /-- The function is left. -/
  | leave (answer : Answer)
  /-- The block has come to its result. -/
  | result (answer : Answer)

namespace Flow

/-- Goes on after statements, unless they left the function or came to a result. -/
def andThen (flow : Flow) (rest : Env → Option Flow) : Option Flow :=
  match flow with
  | next env => rest env
  | leave answer => some (leave answer)
  | result _ => none

/-- The end of a block without a result, in a place where `size` variables are in scope. -/
def closed? (size : Nat) (flow : Flow) : Option Flow :=
  flow.andThen fun env => some (next (env.leave size))

/-- Names the result of a block. -/
def named? (x : String) (env : Env) : Flow → Option Flow
  | result (.value v) => some (next (⟨x, false, v⟩ :: env))
  | leave answer => some (leave answer)
  | _ => none

end Flow

/-- Repeats a body as long as a condition holds. -/
def Env.iterate (condition : Env → Option Bool) (body : Env → Option Flow) (env : Env) :
    Option Flow :=
  match condition env with
  | some true =>
    match body env with
    | some (.next env) => env |>.iterate condition body
    | flow => flow
  | some false => some (.next env)
  | none => none
partial_fixpoint

/-- Runs a body for each of some bytes. -/
def forEach (body : UInt8 → Env → Option Flow) : List UInt8 → Env → Option Flow
  | [], env => some (.next env)
  | byte :: bytes, env => (body byte env).bind fun flow => flow.andThen (forEach body bytes)

mutual

/-- Runs a statement. -/
def Stmt.run? (f : Frame) : Stmt → Env → Option Flow
  | .comment _, env | .blank, env => some (.next env)
  | .bind x e, env =>
    match e.eval? f env with
    | some (.literal _) => none
    | some v => some (.next (⟨x, false, v⟩ :: env))
    | none => none
  | .bindVar x type e, env =>
    ((e.eval? f env).bind (Val.ofType? type)).map fun v => .next (⟨x, true, v⟩ :: env)
  | .bindVars x y e₁ e₂, env =>
    match e₁.eval? f env, e₂.eval? f env with
    | some v, some w => some (.next (⟨y, true, w⟩ :: ⟨x, true, v⟩ :: env))
    | _, _ => none
  | .choose x branches other, env =>
    (runBranches f branches (runStmts f other) env).bind (Flow.named? x env)
  | .select x subject arms y other, env =>
    match subject.eval? f env with
    | some (.number type n) =>
      if arms.all (type.contains ·.1) then
        match arms.find? (·.1 == n) with
        | some (_, e) => (e.eval? f env).map fun v => .next (⟨x, false, v⟩ :: env)
        | none => (other.answer? f (⟨y, false, .number type n⟩ :: env)).map .leave
      else none
    | _ => none
  | .assign x e, env => ((e.eval? f env).bind (env.assign? x)).map .next
  | .mix x e, env =>
    match env.value? x, e.eval? f env with
    | some v, some w => ((v.mix? w).bind (env.assign? x)).map .next
    | _, _ => none
  | .when condition body, env =>
    match condition.truth? f env with
    | some true => (runStmts f body env).bind (Flow.closed? env.length)
    | some false => some (.next env)
    | none => none
  | .loop condition body, env =>
    env.iterate (condition.truth? f)
      fun env => (runStmts f body env).bind (Flow.closed? env.length)
  | .eachByte x text body, env =>
    match env.value? text with
    | some (.text s) =>
      forEach (fun byte env =>
        (runStmts f body (⟨x, false, .number .u8 byte.toNat⟩ :: env)).bind
          (Flow.closed? env.length)) s.toUTF8.toList env
    | _ => none
  | .switch x arms, env =>
    match env.value? x with
    | some (.number type n) => if type = .u32 then runArm f n arms env else none
    | _ => none
  | .order a b found less greater, env =>
    match env.value? a, env.value? b with
    | some (.text s), some (.text s') =>
      match compare s s' with
      | .eq => (found.answer? f env).map .leave
      | .lt => ((less.2.eval? f env).bind (env.assign? less.1)).map .next
      | .gt => ((greater.2.eval? f env).bind (env.assign? greater.1)).map .next
    | _, _ => none
  | .mapLookup typeName entries x, env =>
    match env.value? x with
    | some (.text s) =>
      -- the entries see the cell of the map, and a later one replaces an earlier one of its key
      if typeName = f.typeName
          ∧ entries.all (fun e => (f.constant? ("LOOKUP" :: env.names) e.2).isSome) then
        some (.result (.value (.choice ((entries.reverse.find? (·.1 == s)).map Prod.snd))))
      else none
    | _ => none
  | .ret e, env => (e.answer? f env).map .leave
  | .result e, env => (e.answer? f env).map .result

/-- Runs statements in a row; only the last one may come to a result. -/
def runStmts (f : Frame) : List Stmt → Env → Option Flow
  | [], env => some (.next env)
  | s :: rest, env =>
    match s.run? f env with
    | some (.next env) => runStmts f rest env
    | some (.leave answer) => some (.leave answer)
    | some (.result answer) => if rest.isEmpty then some (.result answer) else none
    | none => none

/-- Runs the block of the first condition that holds, else `other`. -/
def runBranches (f : Frame) :
    List (Expr × List Stmt) → (Env → Option Flow) → Env → Option Flow
  | [], other, env => other env
  | (condition, body) :: rest, other, env =>
    match condition.truth? f env with
    | some true => runStmts f body env
    | some false => runBranches f rest other env
    | none => none

/-- Runs the block of a number, if there is one. -/
def runArm (f : Frame) (n : Int) : List (UInt32 × List Stmt) → Env → Option Flow
  | [], env => some (.next env)
  | (pattern, body) :: rest, env =>
    if n = pattern.toNat then (runStmts f body env).bind (Flow.closed? env.length)
    else runArm f n rest env

end

/-! ## Functions -/

/-- Whether every number in an item is one of its type. -/
def Item.isProper : Item → Bool
  | offsets _ width values => values.all fun n => (elementType width).contains n
  | _ => true

/-- Whether items can stand in one file: no two texts or arrays have the same name. -/
def areProper (items : List Item) : Bool :=
  items.all Item.isProper && decide (items.filterMap Item.dataName?).Nodup

/-- What a function answers in the end. -/
def Flow.answer? : Flow → Option Answer
  | leave answer | result answer => some answer
  | next _ => none

/-- The body of the function that shows a value of a type. -/
def Item.displayBody? (typeName : String) : Item → Option (List Stmt)
  | display name body => if name = typeName then some body else none
  | _ => none

/-- The body of the function of a name that finds a value of a type. -/
def Item.lookupBody? (functionName typeName : String) : Item → Option (List Stmt)
  | lookup name type body => if name = functionName ∧ type = typeName then some body else none
  | _ => none

/-- The text that items show for a value of an enumeration. -/
def show? (items : List Item) (typeName : String) (kind : Kind) (n : Int) : Option String :=
  match items.filterMap (Item.displayBody? typeName), areProper items with
  | [body], true =>
    match (runStmts ⟨dataItems items, typeName, some (.number (.ofKind kind) n), []⟩ body []).bind
        Flow.answer? with
    | some (.shown s) => some s
    | _ => none
  | _, _ => none

/-- The constant that the function of a name finds for a text, if it finds one. The module declares
the type and some constants, whose names have to be apart from those of the items. -/
def lookUp? (constants : List String) (items : List Item) (functionName typeName : String)
    (s : String) : Option (Option String) :=
  match items.filterMap (Item.lookupBody? functionName typeName),
      areProper items && areApart typeName constants items with
  | [body], true =>
    match (runStmts ⟨dataItems items, typeName, none, constants⟩ body
        [⟨"name", false, .text s⟩]).bind Flow.answer? with
    | some (.value (.choice reference)) => some reference
    | _ => none
  | _, _ => none

/-! ## Equations -/

section Equations

-- The equations of the evaluator are made here once, instead of in every proof that asks for them.
attribute [local simp] Expr.eval? Stmt.run? runStmts runBranches runArm

end Equations

end EnumNames.Code
