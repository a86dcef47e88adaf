import EnumNames.Target.Ahead

/-!
# Goals of the grammar

A goal is a piece of syntax that is still to come, and a list of goals is the syntax that is still
to come in a row. Goals fall into families, one for each part of the language. A `Move` says what
becomes of a goal in front of the tokens ahead: it takes some of them and leaves further goals in
its place, or it is left without taking any, or it refuses them.

Some rules depend on what has just been recognised, so a run also carries a `Shape`: the shape of
the construct that was finished last. Taking a token makes it plain; a goal that is left sets it.
-/

namespace EnumNames.Target

/-! ## Shapes -/

/-- What later rules have to know of a path. -/
structure PathShape where
  /-- Whether it begins with a type in angle brackets. -/
  qualified : Bool := false
  /-- Whether it is a single name without a separator before it; the name may have arguments in
  angle brackets. -/
  single : Bool := false
  /-- Whether it begins with a name and no name has arguments. -/
  bare : Bool := true
  /-- Whether its last name has no arguments. -/
  endsBare : Bool := true
  deriving DecidableEq, Repr

/-- The shape of a construct, as far as later rules depend on it. -/
inductive Shape
  | plain
  | path (p : PathShape)
  /-- An expression with a range or a comparison at its top. -/
  | range
  | comparison
  /-- A type in parentheses, or one that is a single bound. -/
  | parenthesized
  | oneBound
  /-- A pattern for a range that has only one end. -/
  | openRange
  deriving DecidableEq, Repr

/-! ## Families of goals -/

/-- Where a path stands: in expressions, arguments in angle brackets need a separator. -/
inductive PathStyle
  | expression
  | type
  deriving DecidableEq, Repr

/-- Goals of paths. -/
inductive PathGoal
  /-- A path of a trait, which begins with a name. -/
  | trait
  /-- A name after a separator. -/
  | segment (style : PathStyle) (p : PathShape)
  /-- The arguments that may follow a name, and what goes on after it. -/
  | arguments (style : PathStyle) (p : PathShape)
  /-- The names that may follow a name with its arguments. -/
  | more (style : PathStyle) (p : PathShape)
  /-- The trait that may follow the type in angle brackets. -/
  | optTrait
  /-- Names without arguments: from the first one, one after a separator, what goes on after one. -/
  | plain
  | plainSegment
  | plainMore
  deriving DecidableEq, Repr

/-- Where a type stands: whether bounds may be added with a plus sign; after a cast, arguments in
parentheses are not allowed either. -/
inductive TypeMode
  | open
  | closed
  | cast
  deriving DecidableEq, Repr

/-- Goals of types, of their arguments and of bounds. -/
inductive TypeGoal
  | whole (mode : TypeMode)
  /-- A type after `for` and its parameters. -/
  | bound (mode : TypeMode)
  /-- What may follow a path: arguments in parentheses, and more. -/
  | parenArguments
  | parenOutput (p : PathShape)
  | parenMore (p : PathShape)
  | pathEnd (mode : TypeMode) (hasBinder : Bool)
  /-- What follows an opening parenthesis. -/
  | group (mode : TypeMode)
  | groupEnd (mode : TypeMode)
  /-- Types up to the closing parenthesis. -/
  | list
  | arrayEnd
  | pointee
  | optReturn (mode : TypeMode)
  /-- A type that may follow a colon. -/
  | optType
  /-- Parameters of the type of a function. -/
  | parameters (isFirst : Bool)
  | parameter (isFirst : Bool)
  /-- Arguments in angle brackets, up to the closing one. -/
  | arguments
  | argumentEnd
  | argumentValue
  /-- Bounds of a type, one of which has to be a trait; those of an `impl` may capture
  parameters. -/
  | bounds (isOpen inImpl hasTrait : Bool)
  | boundsMore (isOpen inImpl hasTrait : Bool)
  | boundsRest (inImpl hasTrait : Bool)
  | captured
  /-- A single bound, and bounds that may be added to one; without any, the type has a shape. -/
  | oneBound
  | addedBounds (otherwise : Shape)
  | traitBound (constAllowed : Bool)
  | traitConst (constAllowed hasBinder : Bool)
  | traitModifier (hasBinder : Bool)
  | traitArguments
  /-- Bounds of a parameter, of which there may be none. -/
  | boundList
  | boundListMore
  | lifetimeList
  | lifetimeListMore
  deriving DecidableEq, Repr

/-- Goals of generic parameters and of the conditions on them. -/
inductive GenericsGoal
  | optional
  /-- Parameters up to the closing bracket, with or without an underscore among them. -/
  | parameters (underscoreAllowed : Bool)
  | parameter (underscoreAllowed : Bool)
  | lifetimeBounds (underscoreAllowed : Bool)
  | typeBounds (underscoreAllowed : Bool)
  | optTypeDefault
  | optConstDefault
  | constDefault
  | optWhere
  | predicates
  | predicateEnd
  deriving DecidableEq, Repr

/-- Goals of patterns. -/
inductive PatternGoal
  /-- A pattern without alternatives at its top. -/
  | single
  /-- A pattern with alternatives at its top. -/
  | whole
  /-- The alternatives that may follow; `isChoice` if there are several for sure. -/
  | alternatives (isChoice : Bool)
  | pathEnd
  | literalEnd
  /-- The bound after the dots of a range: one that has to be there, one that may be missing after a
  first bound, and one that may be missing altogether. -/
  | bound
  | optBound
  | restOrBound
  | name
  | optSubpattern
  | list (b : Bracket)
  | listEnd (b : Bracket)
  | fields
  | field
  | fieldValue
  deriving DecidableEq, Repr

/-- Goals of expressions. There, `fields` tells whether a brace may open the fields of a structure,
which it may not before a block. -/
inductive ExprGoal
  | whole (fields : Bool)
  /-- An expression without operators between operands at its top. -/
  | operand (fields : Bool)
  /-- An operand after attributes. -/
  | attributed (fields : Bool)
  /-- Calls, members, indices and the like that may follow an operand. -/
  | trailers
  /-- Operators of at least some rank, with their right operands, that may follow an operand. -/
  | operators (fields : Bool) (rank : Nat)
  | castEnd
  | rangeEnd (fields : Bool)
  | pathEnd (fields : Bool)
  /-- What follows the dot of a member, which may be an index, and what follows an index with a
  dot. -/
  | memberName
  | memberAfterIndex
  | methodArguments
  /-- Expressions up to the closing bracket. -/
  | list (b : Bracket)
  | arrayFirst
  | arrayEnd
  | structFields
  | structField
  | structBase
  | fieldValue
  /-- The value that may follow a jump. -/
  | optValue (braceAllowed : Bool)
  | breakLabel (fields : Bool)
  | labelled
  | optElse
  | afterElse
  /-- Arms up to the closing brace. -/
  | arms
  | arm
  | armGuard
  | armBody
  | armEnd
  | armBlockEnd
  | closureParameters (fields : Bool)
  | closureParameter (fields : Bool)
  | closureParameterEnd (fields : Bool)
  | closureBody (fields : Bool)
  deriving DecidableEq, Repr

/-- Goals of statements. -/
inductive StatementGoal
  /-- Statements up to the closing brace. -/
  | list
  /-- A statement after attributes, and those that follow it. -/
  | single
  | expressionEnd
  | blockEnd
  | letValue
  | letElse
  deriving DecidableEq, Repr

/-- The kinds of blocks that hold members. -/
inductive MemberPlace
  | traitBlock
  | implBlock
  | foreignBlock
  deriving DecidableEq, Repr

/-- Goals of items and of their parts. -/
inductive ItemGoal
  /-- The items of a file, and those up to the closing brace of a module. -/
  | file
  | module
  /-- An item after attributes, and one after a mark of visibility. -/
  | single
  | marked
  /-- What may follow a mark of visibility in parentheses. -/
  | restriction
  /-- What follows the mark of a macro, and its tokens. -/
  | macroName
  | macroGroup
  | macroParameters
  | crateName
  | optRename
  /-- A value that may follow an equals sign. -/
  | optValue
  | staticEnd
  | moduleName
  | moduleBody
  | optBounds
  | optDefinition
  | foreignTypeEnd
  | functionBody
  | functionParameters (isFirst : Bool)
  | functionParameter (isFirst : Bool)
  | receiverType
  | functionParameterType
  /-- The tree of an import; a separator may stand at its root if `rootAllowed`. -/
  | useTree (rootAllowed : Bool)
  | useMore
  | useList (rootAllowed : Bool)
  | structBody
  | structRest
  | structFields
  | structField
  | fieldName
  | fieldType
  | tupleFields
  | tupleField
  | variants
  | variant
  | variantBody
  | traitBody
  | implConst
  | implPolarity
  | implFor
  /-- Members up to the closing brace. -/
  | members (place : MemberPlace)
  | member (place : MemberPlace)
  | memberMarked (place : MemberPlace)
  | memberDefault (place : MemberPlace)
  deriving DecidableEq, Repr

/-! ## All goals -/

/-- A piece of syntax that is still to come. -/
inductive Goal
  /-- Signs, each but the last one joined to the next. -/
  | signs (l : List Sign)
  | keyword (k : Keyword)
  | opening (b : Bracket)
  | closing (b : Bracket)
  | word
  /-- An identifier or an underscore. -/
  | nameOrUnderscore
  | optSign (s : Sign)
  | optKeyword (k : Keyword)
  | optLifetime
  | optText
  /-- Tokens with balanced brackets up to a closing bracket. -/
  | inside (b : Bracket)
  /-- A bracket of any kind with all that is in it. -/
  | group
  /-- What stands between the brackets of an attribute. -/
  | attributeContent
  | attributeEnd
  | attributeValue
  /-- Attributes of the construct around them. -/
  | innerAttributes
  /-- The end of a list in brackets, or a comma and the goal after it. -/
  | separator (b : Bracket) (again : Goal)
  | angleSeparator (again : Goal)
  /-- Nothing, but what was recognised last gets a shape. -/
  | shape (s : Shape)
  | path (g : PathGoal)
  | type (g : TypeGoal)
  | generics (g : GenericsGoal)
  | pattern (g : PatternGoal)
  | expr (g : ExprGoal)
  | statement (g : StatementGoal)
  | item (g : ItemGoal)
  deriving DecidableEq, Repr

/-! ## Moves -/

/-- What becomes of a goal in front of the tokens ahead. -/
inductive Move
  /-- The next token and `extra` more are part of the goal; the given goals remain of it. -/
  | take (extra : Nat) (next : List Goal)
  /-- Nothing is taken, and what was recognised last has this shape. -/
  | leave (s : Shape)
  | refuse
  deriving DecidableEq, Repr

namespace Move

/-- Takes one token. -/
def one (next : List Goal) : Move :=
  .take 0 next

/-- Further goals after those that a move leaves. -/
def andThen : Move → List Goal → Move
  | .take extra next, later => .take extra (next ++ later)
  | move, _ => move

/-- Takes the mark of an attribute, the attribute, and then a goal. -/
def attributed (goal : Goal) : Move :=
  .one [.opening .square, .attributeContent, .closing .square, goal]

/-- Takes the end of a list in brackets, or a comma and then a goal. -/
def separator (b : Bracket) (again : Goal) (ts : List Token) : Move :=
  if begins [.comma] ts then .one [again]
  else if isClosing b ts then .one []
  else .refuse

/-- Takes the end of a list in angle brackets, or a comma and then a goal. -/
def angleSeparator (again : Goal) (ts : List Token) : Move :=
  if begins [.comma] ts then .one [again]
  else if begins [.greater] ts then .one []
  else .refuse

end Move

/-! ## Common pieces -/

namespace Goal

/-- A type to which bounds may be added. -/
def anyType : Goal :=
  .type (.whole .open)

/-- An expression that may begin with the fields of a structure. -/
def anyExpr : Goal :=
  .expr (.whole true)

/-- The sign that ends a statement. -/
def semicolon : Goal :=
  .signs [.semi]

/-- A block. -/
def block : List Goal :=
  [.opening .brace, .statement .list]

/-- What follows the brace of a block that may begin with attributes. -/
def bodyRest : List Goal :=
  [.innerAttributes, .statement .list]

/-- A block that may begin with attributes. -/
def body : List Goal :=
  .opening .brace :: bodyRest

/-- The parameters after the keyword of a binder. -/
def binder : List Goal :=
  [.signs [.less], .generics (.parameters false)]

end Goal

end EnumNames.Target
