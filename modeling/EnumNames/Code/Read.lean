import EnumNames.Code.Basic
import EnumNames.Code.Lexeme
import EnumNames.Target.Operator

/-!
# Reading emitted code

A text is read as the items that it declares. The reader knows the part of the language that emitted
code is written in, with the precedence of its operators, and refuses everything else; there is no
result either where the declared length of an array is not the number of its elements. Where a
reader goes on after another one, it checks that fewer lexemes are left, so that it comes to an end.

* `shorter?` checks that fewer lexemes are left.
* `readExpr` reads an expression, `readStmt` a statement, `readItem` an item.
* `read?` reads a whole text.
-/

namespace EnumNames.Code

open Target

/-! ## Small parts -/

/-- Passes lexemes that have to stand here. -/
def pass? (phrase ts : List Lexeme) : Option (List Lexeme) :=
  if phrase.isPrefixOf ts then some (ts.drop phrase.length) else none

/-- What is left after some lexemes have been read, if it is less than there was. -/
def shorter? (ts rest : List Lexeme) : Option { rest : List Lexeme // rest.length < ts.length } :=
  if h : rest.length < ts.length then some ⟨rest, h⟩ else none

/-- The integer type with a name. -/
def IntType.named? (name : String) : Option IntType :=
  if name = "i128" then some .i128 else (Kind.named? name).map .ofKind

/-- The element type of offsets with a name. -/
def widthNamed? (name : String) : Option IndexWidth :=
  IndexWidth.all.find? fun width => width.name = name

/-- How tightly an operator binds. -/
def BinOp.level : BinOp → Level
  | or => .or
  | less | atLeast | atMost | equal => .compare
  | add | sub => .sum
  | div => .product

/-- The operator that stands here. -/
def binOp? : List Lexeme → Option (BinOp × List Lexeme)
  | .sign .pipe true :: .sign .pipe false :: ts => some (.or, ts)
  | .sign .less true :: .sign .eq false :: ts => some (.atMost, ts)
  | .sign .greater true :: .sign .eq false :: ts => some (.atLeast, ts)
  | .sign .eq true :: .sign .eq false :: ts => some (.equal, ts)
  | .sign .less false :: ts => some (.less, ts)
  | .sign .plus false :: ts => some (.add, ts)
  | .sign .minus false :: ts => some (.sub, ts)
  | .sign .slash false :: ts => some (.div, ts)
  | _ => none

/-- Reads a number without a suffix. -/
def readNat? : List Lexeme → Option (Nat × List Lexeme)
  | .number n suffix :: ts => if suffix = "" then some (n, ts) else none
  | _ => none

/-- Reads a number without a suffix, which may have a minus sign. -/
def readInt? : List Lexeme → Option (Int × List Lexeme)
  | .sign .minus false :: ts => (readNat? ts).map fun (n, ts) => (-(n : Int), ts)
  | ts => (readNat? ts).map fun (n, ts) => ((n : Int), ts)

/-- The name that a lexeme is in a path. -/
def pathName? : Lexeme → Option String
  | .word name => some name
  | .keyword .crateKw => some "crate"
  | .keyword .superKw => some "super"
  | .keyword .selfValue => some "self"
  | .keyword .selfType => some "Self"
  | _ => none

/-- Reads the names that go on a path. -/
def readPathFrom (path : String) : List Lexeme → Option (String × List Lexeme)
  | .sign .colon true :: .sign .colon false :: t :: ts =>
    match pathName? t with
    | some name => readPathFrom (path ++ "::" ++ name) ts
    | none => none
  | ts => some (path, ts)

/-- Reads a path without type arguments, as its text. -/
def readPath? : List Lexeme → Option (String × List Lexeme)
  | .sign .colon true :: .sign .colon false :: t :: ts =>
    match pathName? t with
    | some name => readPathFrom ("::" ++ name) ts
    | none => none
  | t :: ts =>
    match pathName? t with
    | some name => readPathFrom name ts
    | none => none
  | [] => none

/-- Reads what stands between commas up to a closing square bracket, which is passed. -/
def readList {α : Type} (read : List Lexeme → Option (α × List Lexeme)) (ts : List Lexeme) :
    Option (List α × List Lexeme) :=
  match ts with
  | .closing .square :: rest => some ([], rest)
  | ts => do
    let (a, rest) ← read ts
    match rest with
    | .closing .square :: rest => some ([a], rest)
    | .sign .comma false :: rest =>
      let ⟨rest, _⟩ ← shorter? ts rest
      let (as, rest) ← readList read rest
      return (a :: as, rest)
    | _ => none
termination_by ts.length

/-! ## Expressions -/

/-- Reads what follows the opening parenthesis of a range whose values are tested. -/
def readWithin? (ts : List Lexeme) : Option (Expr × List Lexeme) :=
  match readInt? ts with
  | some (low, .sign .dot true :: .sign .dot true :: .sign .eq _ :: rest) =>
    match readInt? rest with
    | some (high, .closing .paren :: .sign .dot false :: .word method :: .opening .paren
        :: .sign .amp false :: .word x :: .closing .paren :: rest) =>
      if method = "contains" then some (.within low high x, rest) else none
    | _ => none
  | _ => none

mutual

/-- Reads an expression whose operators, outside brackets, have at least a rank. -/
def readExpr (rank : Nat) (ts : List Lexeme) : Option (Expr × List Lexeme) := do
  let (e, rest) ← readAtom ts
  let ⟨rest, _⟩ ← shorter? ts rest
  readOperators rank e rest
termination_by (ts.length, 1)

/-- Goes on after an expression, as long as operators of at least a rank follow. A sign that would
open arguments of a type may not follow a conversion. -/
def readOperators (rank : Nat) (e : Expr) (ts : List Lexeme) : Option (Expr × List Lexeme) :=
  match ts with
  | .keyword .asKw :: .word name :: rest =>
    if Level.cast.rank < rank then some (e, ts)
    else
      match IntType.named? name, rest with
      | some _, .sign .less false :: _ => none
      | some type, rest => readOperators rank (.cast e type) rest
      | none, _ => none
  | ts =>
    match binOp? ts with
    | none => some (e, ts)
    | some (op, rest) =>
      if op.level.rank < rank then some (e, ts)
      else do
        let ⟨rest, _⟩ ← shorter? ts rest
        let (b, rest) ← readExpr op.level.rightRank rest
        let ⟨rest, _⟩ ← shorter? ts rest
        readOperators rank (.binary op e b) rest
termination_by (ts.length, 0)

/-- Reads an expression without operators outside brackets. -/
def readAtom (ts : List Lexeme) : Option (Expr × List Lexeme) :=
  match ts with
  | .keyword .selfValue :: .sign .dot false :: rest => do
    let (n, rest) ← readNat? rest
    if n = 0 then some (.receiver, rest) else none
  | .number n suffix :: rest =>
    if suffix = "" then some (.int n, rest)
    else (IntType.named? suffix).map fun type => (.typedInt type n, rest)
  | .sign .minus false :: rest => (readNat? rest).map fun (n, rest) => (.int (-n), rest)
  | .text s :: rest => some (.literal s, rest)
  | ts@(.sign .amp false :: .word x :: .opening .square :: rest) => do
    let (low, rest) ← readExpr Level.or.rank rest
    let rest ← pass? [.sign .dot true, .sign .dot false] rest
    let ⟨rest, _⟩ ← shorter? ts rest
    let (high, rest) ← readExpr Level.or.rank rest
    let rest ← pass? [.closing .square] rest
    return (.slice x low high, rest)
  | .opening .paren :: rest =>
    match readWithin? rest with
    | some found => some found
    | none => do
      let (e, rest) ← readExpr Level.or.rank rest
      let rest ← pass? [.closing .paren] rest
      return (.paren e, rest)
  | .word x :: rest => readWord x rest
  | _ => none
termination_by (ts.length, 0)

/-- Reads an expression after the word that it begins with. -/
def readWord (x : String) (ts : List Lexeme) : Option (Expr × List Lexeme) :=
  match ts with
  | .opening .square :: rest => do
    let (i, rest) ← readExpr Level.or.rank rest
    let rest ← pass? [.closing .square] rest
    return (.element x i, rest)
  | .opening .paren :: rest =>
    if x = "Some" then
      match readPath? rest with
      | some (reference, .closing .paren :: rest) => some (.someOf (.path reference), rest)
      | _ => do
        let (e, rest) ← readExpr Level.or.rank rest
        let rest ← pass? [.closing .paren] rest
        return (.someOf e, rest)
    else none
  | .sign .dot false :: .word method :: .opening .paren :: rest =>
    if method = "len" then do
      let rest ← pass? [.closing .paren] rest
      return (.length x, rest)
    else if method = "wrapping_mul" then do
      let (n, rest) ← readNat? rest
      let rest ← pass? [.closing .paren] rest
      return (.wrappingMul x n, rest)
    else if x = "f" ∧ method = "write_str" then do
      let (e, rest) ← readExpr Level.or.rank rest
      let rest ← pass? [.closing .paren] rest
      return (.writeText e, rest)
    else none
  | .sign .bang false :: .opening .paren :: .word f :: .sign .comma false :: .text template
      :: .sign .comma false :: rest =>
    if x = "write" ∧ f = "f" then do
      let (e, rest) ← readExpr Level.or.rank rest
      let rest ← pass? [.closing .paren] rest
      return (.writeNumber template e, rest)
    else none
  | _ => if x = "None" then some (.none, ts) else some (.var x, ts)
termination_by (ts.length, 0)

end

/-- Reads a whole expression and passes the lexemes that have to follow it. -/
def readUpTo (phrase ts : List Lexeme) : Option (Expr × List Lexeme) := do
  let (e, rest) ← readExpr Level.or.rank ts
  let rest ← pass? phrase rest
  return (e, rest)

/-! ## Fixed phrases -/

/-- The separator of the names in a path. -/
def pathSeparator : List Lexeme :=
  [.sign .colon true, .sign .colon false]

/-- The arrow of an arm. -/
def armArrow : List Lexeme :=
  [.sign .eq true, .sign .greater false]

/-- The pattern of an ordering, with the arrow of its arm. -/
def orderingArm (ordering : String) : List Lexeme :=
  pathSeparator ++ .word "core" :: pathSeparator ++ .word "cmp" :: pathSeparator
    ++ .word "Ordering" :: pathSeparator ++ .word ordering :: armArrow

/-- The path of the cell whose value is made once, up to its name. -/
def onceLock : List Lexeme :=
  pathSeparator ++ .word "std" :: pathSeparator ++ .word "sync" :: pathSeparator
    ++ [.word "OnceLock"]

/-- The declaration of the map that is built once, up to the type of its values. -/
def mapHead : List Lexeme :=
  [.keyword .staticKw, .word "LOOKUP", .sign .colon false] ++ onceLock ++ [.sign .less true]
    ++ pathSeparator ++ .word "std" :: pathSeparator ++ .word "collections" :: pathSeparator
    ++ [.word "HashMap", .sign .less true, .sign .amp true, .lifetime "static", .word "str",
      .sign .comma false]

/-- What follows the type of the values of the map, up to its entries. -/
def mapInit : List Lexeme :=
  [.sign .greater true, .sign .greater false, .sign .eq false] ++ onceLock ++ pathSeparator
    ++ [.word "new", .opening .paren, .closing .paren, .sign .semi false, .word "LOOKUP",
      .sign .dot false, .word "get_or_init", .opening .paren, .sign .pipe true, .sign .pipe false,
      .opening .brace, .opening .square]

/-- A call of a method without arguments. -/
def plainCall (method : String) : List Lexeme :=
  [.sign .dot false, .word method, .opening .paren, .closing .paren]

/-- What follows the entries of the map, up to the text that is looked up. -/
def mapGet : List Lexeme :=
  plainCall "into_iter" ++ plainCall "collect" ++ [.closing .brace, .closing .paren,
    .sign .dot false, .word "get", .opening .paren]

/-- The block of functions that show a value, up to its type. -/
def displayHead : List Lexeme :=
  .keyword .implKw :: pathSeparator ++ .word "core" :: pathSeparator ++ .word "fmt"
    :: pathSeparator ++ [.word "Display", .keyword .forKw]

/-- The head of the function that shows a value, with the braces before and after it. -/
def displayMethod : List Lexeme :=
  [.opening .brace, .keyword .fnKw, .word "fmt", .opening .paren, .sign .amp false,
      .keyword .selfValue, .sign .comma false, .word "f", .sign .colon false, .sign .amp false,
      .keyword .mutKw]
    ++ pathSeparator ++ .word "core" :: pathSeparator ++ .word "fmt" :: pathSeparator
    ++ [.word "Formatter", .sign .less true, .lifetime "_", .sign .greater false, .closing .paren,
      .sign .minus true, .sign .greater false]
    ++ pathSeparator ++ .word "core" :: pathSeparator ++ .word "fmt" :: pathSeparator
    ++ [.word "Result", .opening .brace]

/-- What follows the name of a function from a text to a value, up to the type of the value. -/
def lookupParameters : List Lexeme :=
  [.opening .paren, .word "name", .sign .colon false, .sign .amp false, .word "str",
    .closing .paren, .sign .minus true, .sign .greater false, .word "Option", .sign .less false]

/-- The head of the block of assertions. -/
def guardHead : List Lexeme :=
  [.keyword .constKw, .keyword .underscore, .sign .colon false, .opening .paren, .closing .paren,
    .sign .eq false, .opening .brace]

/-- What stands before the path in an assertion. -/
def assertHead : List Lexeme :=
  [.word "assert", .sign .bang false, .opening .paren]

/-- What stands between the path and the number in an assertion. -/
def assertField : List Lexeme :=
  [.sign .dot false, .number 0 "", .sign .minus false]

/-- What stands after the number in an assertion. -/
def assertEnd : List Lexeme :=
  [.sign .eq true, .sign .eq false, .number 0 "", .closing .paren, .sign .semi false]

/-- An attribute that only silences the compiler. -/
def allowance (lint : String) : List Lexeme :=
  [.sign .pound false, .opening .square, .word "allow", .opening .paren, .word lint,
    .closing .paren, .closing .square]

/-! ## Statements -/

/-- Reads the arms of a match on numbers after its opening brace. The last arm names what no arm
before it has matched, and leaves the function. -/
def readArms (ts : List Lexeme) : Option ((List (Int × Expr) × String × Expr) × List Lexeme) :=
  match ts with
  | .word y :: rest => do
    let rest ← pass? (armArrow ++ [.keyword .returnKw]) rest
    let (other, rest) ← readUpTo [.sign .comma false, .closing .brace] rest
    return (([], y, other), rest)
  | ts => do
    let (n, rest) ← readInt? ts
    let rest ← pass? armArrow rest
    let (e, rest) ← readUpTo [.sign .comma false] rest
    let ⟨rest, _⟩ ← shorter? ts rest
    let ((arms, last), rest) ← readArms rest
    return (((n, e) :: arms, last), rest)
termination_by ts.length

/-- Reads an assignment up to the comma that ends its arm. -/
def readSetting (ts : List Lexeme) : Option ((String × Expr) × List Lexeme) :=
  match ts with
  | .word x :: .sign .eq false :: rest => do
    let (e, rest) ← readUpTo [.sign .comma false] rest
    return ((x, e), rest)
  | _ => none

/-- Reads the arms of a comparison of two texts after the opening brace. -/
def readOrder (a b : String) (ts : List Lexeme) : Option (Stmt × List Lexeme) := do
  let rest ← pass? (orderingArm "Equal" ++ [.keyword .returnKw]) ts
  let (found, rest) ← readUpTo [.sign .comma false] rest
  let rest ← pass? (orderingArm "Less") rest
  let (less, rest) ← readSetting rest
  let rest ← pass? (orderingArm "Greater") rest
  let (greater, rest) ← readSetting rest
  let rest ← pass? [.closing .brace] rest
  return (.order a b found less greater, rest)

/-- Reads an entry of a map. -/
def readEntry? (ts : List Lexeme) : Option ((String × String) × List Lexeme) :=
  match ts with
  | .opening .paren :: .text name :: .sign .comma false :: rest => do
    let (reference, rest) ← readPath? rest
    let rest ← pass? [.closing .paren] rest
    return ((name, reference), rest)
  | _ => none

/-- Reads the search in a map that is built once. -/
def readMapLookup (ts : List Lexeme) : Option (Stmt × List Lexeme) := do
  match ← pass? mapHead ts with
  | .word typeName :: rest =>
    let rest ← pass? mapInit rest
    let (entries, rest) ← readList readEntry? rest
    match ← pass? mapGet rest with
    | .word x :: .closing .paren :: rest =>
      let rest ← pass? (plainCall "copied") rest
      return (.mapLookup typeName entries x, rest)
    | _ => none
  | _ => none

/-- Reads a result, which stands before the closing brace of its block. -/
def readResult (ts : List Lexeme) : Option (Stmt × List Lexeme) := do
  let (e, rest) ← readExpr Level.or.rank ts
  if rest.head? = some (.closing .brace) then return (.result e, rest) else none

mutual

/-- Reads a statement. -/
def readStmt (ts : List Lexeme) : Option (Stmt × List Lexeme) :=
  match ts with
  | .keyword .letKw :: rest => readLet rest
  | ts@(.keyword .ifKw :: rest) => do
    let (condition, rest) ← readUpTo [.opening .brace] rest
    let ⟨rest, _⟩ ← shorter? ts rest
    let (body, rest) ← readBlock rest
    return (.when condition body, rest)
  | ts@(.keyword .whileKw :: rest) => do
    let (condition, rest) ← readUpTo [.opening .brace] rest
    let ⟨rest, _⟩ ← shorter? ts rest
    let (body, rest) ← readBlock rest
    return (.loop condition body, rest)
  | ts@(.keyword .forKw :: .sign .amp false :: .word x :: .keyword .inKw :: .word s :: rest) => do
    let rest ← pass? (plainCall "as_bytes" ++ [.opening .brace]) rest
    let ⟨rest, _⟩ ← shorter? ts rest
    let (body, rest) ← readBlock rest
    return (.eachByte x s body, rest)
  | .keyword .matchKw :: .word x :: .opening .brace :: rest => do
    let (arms, rest) ← readSwitch rest
    return (.switch x arms, rest)
  | .keyword .matchKw :: .word a :: .sign .dot false :: .word method :: .opening .paren :: .word b
      :: .closing .paren :: .opening .brace :: rest =>
    if method = "cmp" then readOrder a b rest else none
  | .keyword .staticKw :: _ => readMapLookup ts
  | .keyword .returnKw :: rest => do
    let (e, rest) ← readUpTo [.sign .semi false] rest
    return (.ret e, rest)
  | .word x :: .sign .eq false :: rest => do
    let (e, rest) ← readUpTo [.sign .semi false] rest
    return (.assign x e, rest)
  | .word x :: .sign .caret true :: .sign .eq false :: rest => do
    let (e, rest) ← readUpTo [.sign .semi false] rest
    return (.mix x e, rest)
  | _ => readResult ts
termination_by (ts.length, 0)

/-- Reads a declaration of variables after its keyword. -/
def readLet (ts : List Lexeme) : Option (Stmt × List Lexeme) :=
  match ts with
  | .keyword .mutKw :: .word x :: .sign .colon false :: .word typeName :: .sign .eq false :: rest =>
    do
    let type ← IntType.named? typeName
    let (e, rest) ← readUpTo [.sign .semi false] rest
    return (.bindVar x type e, rest)
  | .opening .paren :: .keyword .mutKw :: .word x :: .sign .comma false :: .keyword .mutKw
      :: .word y :: .closing .paren :: .sign .eq false :: .opening .paren :: rest => do
    let (e₁, rest) ← readUpTo [.sign .comma false] rest
    let (e₂, rest) ← readUpTo [.closing .paren, .sign .semi false] rest
    return (.bindVars x y e₁ e₂, rest)
  | .word x :: .sign .eq false :: .keyword .ifKw :: rest => do
    let ((branches, other), rest) ← readBranches rest
    let rest ← pass? [.sign .semi false] rest
    return (.choose x branches other, rest)
  | .word x :: .sign .eq false :: .keyword .matchKw :: rest => do
    let (subject, rest) ← readUpTo [.opening .brace] rest
    let ((arms, y, other), rest) ← readArms rest
    let rest ← pass? [.sign .semi false] rest
    return (.select x subject arms y other, rest)
  | .word x :: .sign .eq false :: rest => do
    let (e, rest) ← readUpTo [.sign .semi false] rest
    return (.bind x e, rest)
  | _ => none
termination_by (ts.length, 0)

/-- Reads statements up to a closing brace, which is passed. -/
def readBlock (ts : List Lexeme) : Option (List Stmt × List Lexeme) :=
  match ts with
  | .closing .brace :: rest => some ([], rest)
  | ts => do
    let (s, rest) ← readStmt ts
    let ⟨rest, _⟩ ← shorter? ts rest
    let (body, rest) ← readBlock rest
    return (s :: body, rest)
termination_by (ts.length, 1)

/-- Reads conditions with their blocks, after the keyword of the first one, and the last block. -/
def readBranches (ts : List Lexeme) :
    Option ((List (Expr × List Stmt) × List Stmt) × List Lexeme) := do
  let (condition, rest) ← readUpTo [.opening .brace] ts
  let ⟨rest, _⟩ ← shorter? ts rest
  let (body, rest) ← readBlock rest
  match rest with
  | .keyword .elseKw :: .keyword .ifKw :: rest =>
    let ⟨rest, _⟩ ← shorter? ts rest
    let ((branches, other), rest) ← readBranches rest
    return (((condition, body) :: branches, other), rest)
  | .keyword .elseKw :: .opening .brace :: rest =>
    let ⟨rest, _⟩ ← shorter? ts rest
    let (other, rest) ← readBlock rest
    return (([(condition, body)], other), rest)
  | _ => none
termination_by (ts.length, 0)

/-- Reads the arms of a match on 32-bit numbers after its opening brace, and the empty last arm. -/
def readSwitch (ts : List Lexeme) : Option (List (UInt32 × List Stmt) × List Lexeme) :=
  match ts with
  | .keyword .underscore :: rest => do
    let rest ← pass? (armArrow ++ [.opening .brace, .closing .brace, .closing .brace]) rest
    return ([], rest)
  | ts => do
    let (n, rest) ← readNat? ts
    let rest ← pass? (armArrow ++ [.opening .brace]) rest
    let ⟨rest, _⟩ ← shorter? ts rest
    let (body, rest) ← readBlock rest
    let ⟨rest, _⟩ ← shorter? ts rest
    let (arms, rest) ← readSwitch rest
    if n < UInt32.size then return ((.ofNat n, body) :: arms, rest) else none
termination_by (ts.length, 0)

end

/-! ## Items -/

/-- Reads the elements of an array, offsets or constants, after its opening bracket. -/
def readElements (name typeName : String) (length : Nat) (ts : List Lexeme) :
    Option (Item × List Lexeme) :=
  match widthNamed? typeName, ts with
  | some width, .number _ _ :: _ => do
    let (values, rest) ← readList readNat? ts
    let rest ← pass? [.sign .semi false] rest
    if values.length = length then return (.offsets name width values, rest) else none
  | _, _ => do
    let (references, rest) ← readList readPath? ts
    let rest ← pass? [.sign .semi false] rest
    if references.length = length then return (.constants name typeName references, rest) else none

/-- Reads an assertion that compares the number behind a path with a number. -/
def readAssertion (ts : List Lexeme) : Option (Assertion × List Lexeme) := do
  let rest ← pass? assertHead ts
  let (reference, rest) ← readPath? rest
  let rest ← pass? assertField rest
  let (n, rest) ← readInt? rest
  let rest ← pass? assertEnd rest
  return (⟨reference, .literal (toString n)⟩, rest)

/-- Reads assertions up to a closing brace, which is passed. -/
def readAssertions (ts : List Lexeme) : Option (List Assertion × List Lexeme) :=
  match ts with
  | .closing .brace :: rest => some ([], rest)
  | ts => do
    let (a, rest) ← readAssertion ts
    let ⟨rest, _⟩ ← shorter? ts rest
    let (as, rest) ← readAssertions rest
    return (a :: as, rest)
termination_by ts.length

/-- Passes an attribute that only silences the compiler, if there is one. -/
def passAllowance (ts : List Lexeme) : List Lexeme :=
  match ts with
  | .sign .pound false :: .opening .square :: .word command :: .opening .paren :: .word _
      :: .closing .paren :: .closing .square :: rest => if command = "allow" then rest else ts
  | _ => ts

/-- Reads an item. -/
def readItem (ts : List Lexeme) : Option (Item × List Lexeme) :=
  match passAllowance ts with
  | .keyword .constKw :: .word name :: .sign .colon false :: .sign .amp false :: .word typeName
      :: .sign .eq false :: .text s :: .sign .semi false :: rest =>
    if typeName = "str" then some (.blob name s, rest) else none
  | .keyword .staticKw :: .word name :: .sign .colon false :: .opening .square :: .word typeName
      :: .sign .semi false :: rest => do
    let (length, rest) ← readNat? rest
    let rest ← pass? [.closing .square, .sign .eq false, .opening .square] rest
    readElements name typeName length rest
  | .keyword .constKw :: .keyword .underscore :: rest => do
    let rest ← pass? guardHead (.keyword .constKw :: .keyword .underscore :: rest)
    let (assertions, rest) ← readAssertions rest
    let rest ← pass? [.sign .semi false] rest
    return (.guard assertions, rest)
  | .keyword .implKw :: rest => do
    match ← pass? displayHead (.keyword .implKw :: rest) with
    | .word typeName :: rest =>
      let rest ← pass? displayMethod rest
      let (body, rest) ← readBlock rest
      let rest ← pass? [.closing .brace] rest
      return (.display typeName body, rest)
    | _ => none
  | .keyword .pubKw :: .keyword .fnKw :: .word name :: rest => do
    match ← pass? lookupParameters rest with
    | .word typeName :: rest =>
      let rest ← pass? [.sign .greater false, .opening .brace] rest
      let (body, rest) ← readBlock rest
      return (.lookup name typeName body, rest)
    | _ => none
  | _ => none

/-- Reads items up to the end. -/
def readItems (ts : List Lexeme) : Option (List Item) :=
  if ts.isEmpty then some []
  else do
    let (item, rest) ← readItem ts
    let ⟨rest, _⟩ ← shorter? ts rest
    let items ← readItems rest
    return item :: items
termination_by ts.length

/-- The items that a text declares. -/
def read? (text : String) : Option (List Item) := do
  readItems (← lexemes? text.toList)

end EnumNames.Code
