import EnumNames.Target.Operator
import EnumNames.Target.Pattern
import EnumNames.Target.Type

/-!
# Expressions

An expression is a row of operands with operators between them, and an operand is an atom with
calls, members and the like after it. Ranges and comparisons restrict which operators may follow, so
they leave their shape.

* `startBlockLike?` begins an expression that ends in a block and needs nothing after it to stand as
  a statement.
* `startAtom`, `startOperand` and `startExpr` begin the three layers.
-/

namespace EnumNames.Target

/-! ## Blocks -/

/-- A condition with its block, and what may follow it. -/
def conditionRest : List Goal :=
  .expr (.whole false) :: Goal.block ++ [.expr .optElse]

/-- A loop over the values of an expression, after its keyword. -/
def iterationRest : List Goal :=
  [.pattern .whole, .keyword .inKw, .expr (.whole false)] ++ Goal.body

/-- Whether the parameters of a binder for a closure stand ahead. -/
def isClosureBinder (ts : List Token) : Bool :=
  begins [.less] ts && (isLifetime (ts.drop 1) || begins [.greater] (ts.drop 1))

/-- Begins an expression that ends in a block, if one stands ahead. -/
def startBlockLike? (ts : List Token) : Option Move :=
  match ts with
  | .keyword .ifKw :: _ => some (.one conditionRest)
  | .keyword .whileKw :: _ => some (.one (.expr (.whole false) :: Goal.body))
  | .keyword .forKw :: rest =>
    if isClosureBinder rest then none else some (.one iterationRest)
  | .keyword .loopKw :: _ | .keyword .unsafeKw :: _ => some (.one Goal.body)
  | .keyword .matchKw :: _ =>
    some (.one [.expr (.whole false), .opening .brace, .innerAttributes, .expr .arms])
  | .keyword .tryKw :: .opening .brace :: _ => some (.take 1 [.statement .list])
  | .keyword .constKw :: .opening .brace :: _ => some (.take 1 Goal.bodyRest)
  | .opening .brace :: _ => some (.one Goal.bodyRest)
  | .lifetime :: _ => some (.one [.signs [.colon], .expr .labelled])
  | _ => none

/-- Begins a loop or a block after a label. -/
def startLabelled (ts : List Token) : Move :=
  match ts with
  | .keyword .whileKw :: _ => .one (.expr (.whole false) :: Goal.body)
  | .keyword .forKw :: _ => .one iterationRest
  | .keyword .loopKw :: _ => .one Goal.body
  | .opening .brace :: _ => .one Goal.bodyRest
  | _ => .refuse

/-! ## Closures -/

/-- The words that may stand before the parameters of a closure, in their order. -/
def closureWords : List Keyword :=
  [.constKw, .staticKw, .asyncKw, .moveKw]

/-- Whether a closure stands ahead; a block that begins with `const` is ruled out before. -/
def isClosure (ts : List Token) : Bool :=
  let next := ts.drop 1
  begins [.pipe] ts || isKeywordOf [.moveKw, .staticKw, .constKw] ts
    || isKeyword .forKw ts && isClosureBinder next
    || isKeyword .asyncKw ts
      && (begins [.pipe] next || isKeyword .moveKw next && !isOpening .brace (ts.drop 2))

/-- Begins a closure. -/
def startClosure (fields : Bool) (ts : List Token) : Move :=
  let parameters : List Goal := [.signs [.pipe], .expr (.closureParameters fields)]
  match ts with
  | .keyword .forKw :: _ => .one (Goal.binder ++ closureWords.map .optKeyword ++ parameters)
  | .keyword k :: _ =>
    let later := (closureWords.dropWhile (· ≠ k)).drop 1
    .one (later.map .optKeyword ++ parameters)
  | _ => .one [.expr (.closureParameters fields)]

/-- Begins a parameter of a closure. -/
def startClosureParameter (fields : Bool) (ts : List Token) : Move :=
  if begins [.pound] ts then .attributed (.expr (.closureParameter fields))
  else (startPattern ts).andThen [.type .optType, .expr (.closureParameterEnd fields)]

/-! ## Atoms -/

/-- Whether a value may begin here, after a word that a value may follow. -/
def isValue (ts : List Token) : Bool :=
  let alone (s : Sign) (l : List (List Sign)) := begins [s] ts && !l.any (begins · ts)
  isAnyWord ts && !isKeyword .asKw ts || isOpening .paren ts || isOpening .square ts
    || isOpening .brace ts || (literalAhead? ts).isSome || isLifetime ts
    || begins [.dot, .dot] ts || begins [.colon, .colon] ts || begins [.pound] ts
    || alone .bang [[.bang, .eq]] || alone .minus [[.minus, .eq], [.minus, .greater]]
    || alone .star [[.star, .eq]] || alone .pipe [[.pipe, .eq]] || alone .amp [[.amp, .eq]]
    || alone .less [[.less, .eq], [.less, .less, .eq]]

/-- Whether something stands ahead that a range without an upper bound ends at. -/
def endsOpenRange (fields : Bool) (ts : List Token) : Bool :=
  isEnd ts || isDotAlone ts || !fields && isOpening .brace ts || isKeyword .asKw ts
    || [[.comma], [.semi], [.question], [.eq], [.plus], [.slash], [.percent], [.caret], [.greater],
      [.less, .eq], [.bang, .eq], [.minus, .eq], [.star, .eq], [.amp, .eq], [.pipe, .eq],
      [.less, .less, .eq]].any (begins · ts)

/-- The dots of a range and its upper bound, if dots stand ahead. -/
def startUpperBound? (fields : Bool) (ts : List Token) : Option Move :=
  if !begins [.dot, .dot] ts then none
  else if begins [.dot, .dot, .dot] ts then some .refuse
  else if begins [.dot, .dot, .eq] ts then
    some (.take 2 [.expr (.operand fields), .expr (.operators fields Level.range.rightRank),
      .shape .range])
  else some (.take 1 [.expr (.rangeEnd fields), .shape .range])

/-- Begins an atom with a keyword of its own. -/
def startKeywordAtom (fields : Bool) (k : Keyword) (rest : List Token) : Move :=
  match k with
  | .asyncKw =>
    if isOpening .brace rest then .take 1 [.statement .list]
    else if isKeyword .moveKw rest && isOpening .brace (rest.drop 1) then
      .take 2 [.statement .list]
    else .refuse
  | .breakKw => .one [.expr (.breakLabel fields)]
  | .continueKw => .one [.optLifetime]
  | .returnKw | .yieldKw => .one [.expr (.optValue true)]
  | .becomeKw => .one [.anyExpr, .shape .plain]
  | .letKw =>
    .one [.pattern .whole, .signs [.eq], .expr (.operand fields),
      .expr (.operators fields Level.compare.rank), .shape .plain]
  | .underscore | .trueKw | .falseKw => .one []
  | _ => .refuse

/-- Whether an atom that begins with a path stands ahead. -/
def isPathAtom (ts : List Token) : Bool :=
  isPath ts
    || isKeyword .tryKw ts && (begins [.bang] (ts.drop 1) || begins [.colon, .colon] (ts.drop 1))

/-- Begins an atom. -/
def startAtom (fields : Bool) (ts : List Token) : Move :=
  match startBlockLike? ts with
  | some move => move
  | none =>
    if isClosure ts then startClosure fields ts
    else if isNamed "builtin" ts && begins [.pound] (ts.drop 1) then
      .take 1 [.word, .opening .paren, .inside .paren]
    else if isPathAtom ts then (startPath .expression ts).andThen [.expr (.pathEnd fields)]
    else match ts with
      | .literal _ :: _ => .one []
      | .keyword k :: rest => startKeywordAtom fields k rest
      | .opening .paren :: _ => .one [.expr (.list .paren)]
      | .opening .square :: _ => .one [.expr .arrayFirst]
      | _ => (startUpperBound? fields ts).getD .refuse

/-! ## Operands -/

/-- Begins an operand without attributes. -/
def startBareOperand (fields : Bool) (ts : List Token) : Move :=
  let next : List Goal := [.expr (.operand fields), .shape .plain]
  match ts with
  | .sign .star _ :: _ | .sign .bang _ :: _ | .sign .minus _ :: _ => .one next
  | .sign .amp _ :: rest =>
    if isNamed "raw" rest && isKeywordOf [.mutKw, .constKw] (rest.drop 1) then .take 2 next
    else .one (.optKeyword .mutKw :: next)
  | _ => (startAtom fields ts).andThen [.expr .trailers]

/-- Begins an operand. -/
def startOperand (fields : Bool) (ts : List Token) : Move :=
  if begins [.pound] ts then .attributed (.expr (.attributed fields))
  else startBareOperand fields ts

/-- Begins what may follow an operand, which nothing may do if that is a range. -/
def startTrailer (s : Shape) (ts : List Token) : Move :=
  if isOpening .paren ts then .one [.expr (.list .paren), .expr .trailers]
  else if isOpening .square ts then .one [.anyExpr, .closing .square, .expr .trailers]
  else if s = .range then .leave s
  else if isDotAlone ts then .one [.expr .memberName, .expr .trailers]
  else if begins [.question] ts then .one [.expr .trailers]
  else .leave s

/-- Takes the name of a member. -/
def startMemberName (ts : List Token) : Move :=
  match ts with
  | .keyword .awaitKw :: _ | .literal .index :: _ => .one []
  | .word _ :: _ => .one [.expr .methodArguments]
  | _ => .refuse

/-! ## Whole expressions -/

/-- Begins an expression. -/
def startExpr (fields : Bool) (ts : List Token) : Move :=
  (startOperand fields ts).andThen [.expr (.operators fields Level.jump.rank)]

/-- Goes on after an operand with an operator of at least some rank, or ends the expression. No
operator follows a range, and comparisons do not stand in a row. -/
def startOperator (fields : Bool) (rank : Nat) (s : Shape) (ts : List Token) : Move :=
  let again : Goal := .expr (.operators fields rank)
  let right (level : Level) (result : Shape) : List Goal :=
    [.expr (.operand fields), .expr (.operators fields level.rightRank), .shape result, again]
  if s = .range then .leave s
  else match operator? ts with
    -- An operator of a lower rank belongs to an expression around this one.
    | some (extra, level) =>
      if level.rank < rank then .leave s
      else if level = .compare then
        if s = .comparison then .refuse else .take extra (right level .comparison)
      else .take extra (right level .plain)
    | none =>
      if begins [.eq] ts && !begins [.eq, .greater] ts && rank ≤ Level.assign.rank then
        .one (right .assign .plain)
      else if isKeyword .asKw ts && rank ≤ Level.cast.rank then
        .one [.type (.whole .cast), .expr .castEnd, again]
      else if rank ≤ Level.range.rank then
        ((startUpperBound? fields ts).getD (.leave s)).andThen [again]
      else .leave s

/-- Begins the body of a closure, which is a block if the type of its value is given. -/
def startClosureBody (fields : Bool) (ts : List Token) : Move :=
  if begins [.minus, .greater] ts then .take 1 (.anyType :: Goal.block)
  else (startExpr fields ts).andThen [.shape .plain]

/-- Begins a value that may follow a jump. -/
def startValue (braceAllowed : Bool) (ts : List Token) : Move :=
  if isValue ts && (braceAllowed || !isOpening .brace ts) then
    (startExpr true ts).andThen [.shape .plain]
  else .leave .plain

/-! ## Fields and arms -/

/-- Begins a field of a structure. -/
def startStructField (ts : List Token) : Move :=
  if begins [.pound] ts then .attributed (.expr .structField)
  else match ts with
    | .word _ :: _ => .one [.expr .fieldValue]
    | .literal .index :: _ =>
      .one [.signs [.colon], .anyExpr, .separator .brace (.expr .structFields)]
    | _ => .refuse

/-- Begins an arm. -/
def startArm (ts : List Token) : Move :=
  if begins [.pound] ts then .attributed (.expr .arm)
  else (startAlternatives ts).andThen [.expr .armGuard]

/-- Begins the body of an arm. One that ends in a block needs no comma after it. -/
def startArmBody (ts : List Token) : Move :=
  if begins [.pound] ts then .attributed (.expr .armBody)
  else match startBlockLike? ts with
    | some move => move.andThen [.expr .armBlockEnd]
    | none =>
      (startBareOperand true ts).andThen [.expr (.operators true Level.jump.rank), .expr .armEnd]

/-- Goes on after a block that stands for itself, if a member or a question mark follows it; the
expression may then go on with operators. -/
def continueBlock? (ts : List Token) : Option Move :=
  if isDotAlone ts || begins [.question] ts then
    some ((startTrailer .plain ts).andThen [.expr (.operators true Level.jump.rank)])
  else none

/-- Goes on after the body of an arm that ends in a block. -/
def endArmBlock (ts : List Token) : Move :=
  match continueBlock? ts with
  | some move => move.andThen [.expr .armEnd]
  | none =>
    if begins [.comma] ts then .one [.expr .arms]
    else if isClosing .brace ts then .one []
    else startArm ts

/-! ## Steps -/

/-- What becomes of a goal of expressions. -/
def ExprGoal.step (g : ExprGoal) (s : Shape) (ts : List Token) : Move :=
  match g with
  | whole fields => startExpr fields ts
  | operand fields => startOperand fields ts
  | attributed fields =>
    if begins [.pound] ts then .attributed (.expr (.attributed fields))
    else if begins [.dot, .dot] ts then .refuse
    else startBareOperand fields ts
  | trailers => startTrailer s ts
  | operators fields rank => startOperator fields rank s ts
  | castEnd =>
    if isDotAlone ts || begins [.question] ts || isOpening .square ts || isOpening .paren ts then
      .refuse
    else .leave .plain
  | rangeEnd fields =>
    if endsOpenRange fields ts then .leave .plain
    else (startOperand fields ts).andThen [.expr (.operators fields Level.range.rightRank)]
  | pathEnd fields =>
    match s with
    | .path p =>
      if p.bare && isBangAlone ts then .one [.group]
      else if fields && isOpening .brace ts then .one [.expr .structFields]
      else .leave s
    | _ => .leave s
  | memberName =>
    match ts with
    | .literal (.indexPath endsInDot) :: _ =>
      .one (if endsInDot then [.expr .memberAfterIndex] else [])
    | _ => startMemberName ts
  | memberAfterIndex => startMemberName ts
  | methodArguments =>
    if begins [.colon, .colon] ts then
      .take 1 [.signs [.less], .type .arguments, .opening .paren, .expr (.list .paren)]
    else if isOpening .paren ts then .one [.expr (.list .paren)]
    else .leave .plain
  | list b =>
    if isClosing b ts then .one []
    else (startExpr true ts).andThen [.separator b (.expr (.list b))]
  | arrayFirst =>
    if isClosing .square ts then .one [] else (startExpr true ts).andThen [.expr .arrayEnd]
  | arrayEnd =>
    if begins [.semi] ts then .one [.anyExpr, .closing .square]
    else .separator .square (.expr (.list .square)) ts
  | structFields =>
    if isClosing .brace ts then .one []
    else if begins [.dot, .dot] ts then .take 1 [.expr .structBase]
    else startStructField ts
  | structField => startStructField ts
  | structBase =>
    if isClosing .brace ts then .one [] else (startExpr true ts).andThen [.closing .brace]
  | fieldValue =>
    if begins [.colon] ts then .one [.anyExpr, .separator .brace (.expr .structFields)]
    else .separator .brace (.expr .structFields) ts
  | optValue braceAllowed => startValue braceAllowed ts
  | breakLabel fields =>
    if isLifetime ts then
      if begins [.colon] (ts.drop 1) then .refuse else .one [.expr (.optValue fields)]
    else startValue fields ts
  | labelled => startLabelled ts
  | optElse => if isKeyword .elseKw ts then .one [.expr .afterElse] else .leave .plain
  | afterElse =>
    if isKeyword .ifKw ts then .one conditionRest
    else if isOpening .brace ts then .one [.statement .list]
    else .refuse
  | arms => if isClosing .brace ts then .one [] else startArm ts
  | arm => startArm ts
  | armGuard =>
    if isKeyword .ifKw ts then .one [.anyExpr, .signs [.eq, .greater], .expr .armBody]
    else if begins [.eq, .greater] ts then .take 1 [.expr .armBody]
    else .refuse
  | armBody => startArmBody ts
  | armEnd => .separator .brace (.expr .arms) ts
  | armBlockEnd => endArmBlock ts
  | closureParameters fields =>
    if begins [.pipe] ts then .one [.expr (.closureBody fields)]
    else startClosureParameter fields ts
  | closureParameter fields => startClosureParameter fields ts
  | closureParameterEnd fields =>
    if begins [.pipe] ts then .one [.expr (.closureBody fields)]
    else if begins [.comma] ts then .one [.expr (.closureParameters fields)]
    else .refuse
  | closureBody fields => startClosureBody fields ts

end EnumNames.Target
