import EnumNames.Target.Path

/-!
# Types

Types, the bounds that traits and lifetimes put on them, and the arguments in angle brackets that a
name may have. Types are the hardest part to tell apart by what stands ahead: a parenthesis may open
a tuple, a group or a bound, and a path may turn out to be the first of several bounds.

* `startType` begins a type.
* `startBounds` and `startTraitBound` begin bounds.
* `TypeGoal.step` is what becomes of a goal of this family.
-/

namespace EnumNames.Target

/-! ## Bounds -/

/-- Begins the path of a trait; a question mark before it does not go together with a binder. -/
def startTraitModifier (hasBinder : Bool) (ts : List Token) : Move :=
  if begins [.question] ts then
    if hasBinder then .refuse else .one [.path .trait, .type .traitArguments]
  else (startNamedPath .type ts).andThen [.type .traitArguments]

/-- Begins a trait after its binder. Where it is allowed, it may be marked as constant. -/
def startTraitConst (constAllowed hasBinder : Bool) (ts : List Token) : Move :=
  let next : Goal := .type (.traitModifier hasBinder)
  if isOpening .square ts then
    if constAllowed then .one [.keyword .constKw, .closing .square, next] else .refuse
  else if isKeyword .constKw ts then
    if constAllowed then .one [next] else .refuse
  else startTraitModifier hasBinder ts

/-- Begins a trait without parentheses around it. -/
def startBareTrait (constAllowed : Bool) (ts : List Token) : Move :=
  if isKeyword .forKw ts then .one (Goal.binder ++ [.type (.traitConst constAllowed true)])
  else startTraitConst constAllowed false ts

/-- Begins a trait. -/
def startTraitBound (constAllowed : Bool) (ts : List Token) : Move :=
  if isOpening .paren ts then .one [.type (.traitBound constAllowed), .closing .paren]
  else startBareTrait constAllowed ts

/-- Begins bounds of a type. Lifetimes and captured parameters do not count as traits. -/
def startBounds (isOpen inImpl hasTrait : Bool) (ts : List Token) : Move :=
  if isLifetime ts then .one [.type (.boundsMore isOpen inImpl hasTrait)]
  else if isKeyword .useKw ts then
    if inImpl then
      .one [.signs [.less], .type .captured, .type (.boundsMore isOpen inImpl hasTrait)]
    else .refuse
  else (startTraitBound inImpl ts).andThen [.type (.boundsMore isOpen inImpl true)]

/-- Ends bounds of a type, one of which has to be a trait. -/
def endBounds (hasTrait : Bool) : Move :=
  if hasTrait then .leave .plain else .refuse

/-- Whether a bound is expected after a plus sign, not the end of the bounds. -/
def isBoundAfterPlus (inImpl : Bool) (ts : List Token) : Bool :=
  isAnyWord ts || begins [.colon, .colon] ts || begins [.question] ts || isLifetime ts
    || isOpening .paren ts || inImpl && isOpening .square ts

/-- Whether a trait stands ahead. -/
def isTrait (ts : List Token) : Bool :=
  isPathName ts || isKeywordOf [.tryKw, .forKw, .constKw] ts || begins [.colon, .colon] ts
    || begins [.question] ts || isOpening .paren ts || isOpening .square ts

/-- Begins bounds of a parameter, or leaves them out. -/
def startBoundList (ts : List Token) : Move :=
  if isLifetime ts then .one [.type .boundListMore]
  else if isTrait ts then (startTraitBound true ts).andThen [.type .boundListMore]
  else .leave .plain

/-! ## Types -/

/-- Begins a type that is a path. -/
def startPathType (mode : TypeMode) (hasBinder : Bool) (ts : List Token) : Move :=
  (startPath .type ts).andThen
    (if mode = .cast then [.type (.pathEnd mode hasBinder)]
    else [.type .parenArguments, .type (.pathEnd mode hasBinder)])

/-- The parameters and the result in the type of a function. -/
def functionTypeRest : List Goal :=
  [.opening .paren, .type (.parameters true), .type (.optReturn .closed), .shape .plain]

/-- Begins the type of a function. -/
def startFunctionType (ts : List Token) : Move :=
  let convention : List Goal := .optText :: .keyword .fnKw :: functionTypeRest
  match ts with
  | .keyword .fnKw :: _ => .one functionTypeRest
  | .keyword .externKw :: _ => .one convention
  | .keyword .unsafeKw :: .keyword .externKw :: _ => .take 1 convention
  | .keyword .unsafeKw :: _ => .one (.keyword .fnKw :: functionTypeRest)
  | _ => .refuse

/-- Begins a type after a binder: only paths and functions can be bound. -/
def startBoundType (mode : TypeMode) (ts : List Token) : Move :=
  if isPathName ts then startPathType mode true ts else startFunctionType ts

/-- Begins a type. -/
def startType (mode : TypeMode) (ts : List Token) : Move :=
  if isPath ts then startPathType mode false ts
  else if isKeywordOf [.fnKw, .unsafeKw, .externKw] ts then startFunctionType ts
  else if isLifetime ts then startBounds true false false ts
  else match ts with
    | .opening .paren :: _ => .one [.type (.group mode)]
    | .opening .square :: _ => .one [.anyType, .type .arrayEnd]
    | .sign .star _ :: _ => .one [.type .pointee]
    | .sign .amp _ :: _ =>
      .one [.optLifetime, .optKeyword .mutKw, .type (.whole .closed), .shape .plain]
    | .sign .bang _ :: _ | .keyword .underscore :: _ => .one []
    | .keyword .forKw :: _ => .one (Goal.binder ++ [.type (.bound mode)])
    | .keyword .dynKw :: _ => .one [.optSign .star, .type (.bounds (mode = .open) false false)]
    | .keyword .implKw :: _ => .one [.type (.bounds (mode = .open) true false)]
    | _ => .refuse

/-- Begins a type that may follow a colon. -/
def startOptType (ts : List Token) : Move :=
  if begins [.colon] ts then .one [.anyType] else .leave .plain

/-- Begins the type of the result of a function. -/
def startReturn (mode : TypeMode) (ts : List Token) : Move :=
  if begins [.minus, .greater] ts then .take 1 [.type (.whole mode)] else .leave .plain

/-! ## What follows a path -/

/-- Goes on after arguments in parentheses: to a further name, which may have such arguments too. -/
def afterParenArguments (p : PathShape) (ts : List Token) : Move :=
  (p.more .type ts).andThen [.type .parenArguments]

/-- Arguments in parentheses that may follow the last name of a path. -/
def startParenArguments (p : PathShape) (ts : List Token) : Move :=
  let next : List Goal :=
    [.type .list, .type (.parenOutput { p with single := false, bare := false, endsBare := false })]
  if !p.endsBare then .leave (.path p)
  else if isOpening .paren ts then .one next
  else if isPathParen ts then .take 2 next
  else .leave (.path p)

/-- Ends a type that is a path: it may be a macro or the first of several bounds. -/
def endPathType (mode : TypeMode) (hasBinder : Bool) (p : PathShape) (ts : List Token) : Move :=
  if p.qualified then .leave (.path p)
  else if p.bare && isBangAlone ts then .one [.group]
  else if mode = .open && begins [.plus] ts then .one [.type (.boundsRest false true)]
  else .leave (if hasBinder then .oneBound else .path p)

/-! ## Types in parentheses -/

/-- Goes on after an opening parenthesis. -/
def startGroup (mode : TypeMode) (ts : List Token) : Move :=
  if isClosing .paren ts then .one []
  else if isLifetime ts then
    (startBounds true false false ts).andThen [.closing .paren, .shape .parenthesized]
  -- A question mark can only begin a bound, and then the parentheses are part of it.
  else if begins [.question] ts then
    (startBareTrait false ts).andThen [.closing .paren, .type (.addedBounds .oneBound)]
  else (startType .open ts).andThen [.type (.groupEnd mode)]

/-- Goes on after the first type in parentheses. A single bound may be followed by others. -/
def endGroup (mode : TypeMode) (s : Shape) (ts : List Token) : Move :=
  if isClosing .paren ts then
    match s with
    | .path p =>
      if mode = .open && !p.qualified then .one [.type (.addedBounds .parenthesized)]
      else .one [.shape .parenthesized]
    | .oneBound =>
      if mode = .open then .one [.type (.addedBounds .parenthesized)]
      else .one [.shape .parenthesized]
    | _ => .one [.shape .parenthesized]
  else if begins [.comma] ts then .one [.type .list]
  else .refuse

/-! ## Parameters of the type of a function -/

/-- What follows a parameter that stands for any number of arguments. -/
def lastParameterRest : List Goal :=
  [.optSign .comma, .closing .paren]

/-- The goal after a parameter of the type of a function. -/
def afterTypeParameter : Goal :=
  .separator .paren (.type (.parameters false))

/-- Whether a name and a colon stand ahead. -/
def isNameColon (ts : List Token) : Bool :=
  (isWord ts || isKeyword .underscore ts) && isColonAlone (ts.drop 1)

/-- Whether the receiver of a method stands ahead, marked as one that may change. -/
def isMutSelf (ts : List Token) : Bool :=
  isKeyword .mutKw ts && isKeyword .selfValue (ts.drop 1)

/-- Begins a parameter of the type of a function. The first one may be a receiver. -/
def startTypeParameter (isFirst : Bool) (ts : List Token) : Move :=
  if begins [.pound] ts then .attributed (.type (.parameter isFirst))
  else if begins [.dot, .dot, .dot] ts then .take 2 lastParameterRest
  else if isNameColon ts then
    if begins [.dot, .dot, .dot] (ts.drop 2) then .take 4 lastParameterRest
    else if isFirst && isMutSelf (ts.drop 2) then .take 3 [afterTypeParameter]
    else .take 1 [.anyType, afterTypeParameter]
  else if isFirst && isMutSelf ts then
    if isColonAlone (ts.drop 2) then .take 2 [.anyType, afterTypeParameter]
    else .take 1 [afterTypeParameter]
  else if isFirst && isKeyword .selfValue ts && isColonAlone (ts.drop 1) then
    .take 1 [.anyType, afterTypeParameter]
  else (startType .open ts).andThen [afterTypeParameter]

/-! ## Arguments in angle brackets -/

/-- The goal after an argument in angle brackets. -/
def afterArgument : Goal :=
  .angleSeparator (.type .arguments)

/-- A constant that is a literal or a block, if one stands ahead. -/
def startConstant? (ts : List Token) : Option Move :=
  if isOpening .brace ts then some (.one Goal.bodyRest)
  else (literalAhead? ts).map (.take · [])

/-- Begins an argument in angle brackets, or ends them. -/
def startArguments (ts : List Token) : Move :=
  if begins [.greater] ts then .one []
  else if isLifetime ts && !begins [.plus] (ts.drop 1) then .one [afterArgument]
  else match startConstant? ts with
    | some move => move.andThen [afterArgument]
    | none => (startType .open ts).andThen [.type .argumentEnd]

/-- Goes on after a type in angle brackets. A single name may be that of an associated type or
constant, and its value or its bounds may follow. -/
def endArgument (s : Shape) (ts : List Token) : Move :=
  match s with
  | .path p =>
    if p.single && begins [.eq] ts then .one [.type .argumentValue, afterArgument]
    else if p.single && begins [.colon] ts then .one [.type .boundList, afterArgument]
    else .angleSeparator (.type .arguments) ts
  | _ => .angleSeparator (.type .arguments) ts

/-! ## Steps -/

/-- What becomes of a goal after a path, `p` telling its form. -/
def TypeGoal.stepAfterPath (g : TypeGoal) (p : PathShape) (ts : List Token) : Move :=
  match g with
  | parenArguments => startParenArguments p ts
  | pathEnd mode hasBinder => endPathType mode hasBinder p ts
  | traitArguments =>
    if p.endsBare && isOpening .paren ts then .one [.type .list, .type (.optReturn .closed)]
    else if p.endsBare && isPathParen ts then .take 2 [.type .list, .type (.optReturn .closed)]
    else .leave .plain
  | _ => .refuse

/-- What becomes of a goal of types. -/
def TypeGoal.step (g : TypeGoal) (s : Shape) (ts : List Token) : Move :=
  match g with
  | whole mode => startType mode ts
  | bound mode => startBoundType mode ts
  | parenArguments | pathEnd _ _ | traitArguments =>
    match s with
    | .path p => g.stepAfterPath p ts
    | _ => .leave s
  | parenOutput p =>
    if begins [.minus, .greater] ts then .take 1 [.type (.whole .closed), .type (.parenMore p)]
    else afterParenArguments p ts
  | parenMore p => if s = .parenthesized then afterParenArguments p ts else .leave (.path p)
  | group mode => startGroup mode ts
  | groupEnd mode => endGroup mode s ts
  | list =>
    if isClosing .paren ts then .one []
    else (startType .open ts).andThen [.separator .paren (.type .list)]
  | arrayEnd =>
    if begins [.semi] ts then .one [.anyExpr, .closing .square]
    else if isClosing .square ts then .one []
    else .refuse
  | pointee =>
    if isKeywordOf [.constKw, .mutKw] ts then .one [.type (.whole .closed), .shape .plain]
    else .refuse
  | optReturn mode => startReturn mode ts
  | optType => startOptType ts
  | parameters isFirst =>
    if isClosing .paren ts then .one [] else startTypeParameter isFirst ts
  | parameter isFirst => startTypeParameter isFirst ts
  | arguments => startArguments ts
  | argumentEnd => endArgument s ts
  | argumentValue =>
    match startConstant? ts with
    | some move => move
    | none => startType .open ts
  | bounds isOpen inImpl hasTrait => startBounds isOpen inImpl hasTrait ts
  | boundsMore isOpen inImpl hasTrait =>
    if isOpen && begins [.plus] ts then .one [.type (.boundsRest inImpl hasTrait)]
    else endBounds hasTrait
  | boundsRest inImpl hasTrait =>
    if isBoundAfterPlus inImpl ts then startBounds true inImpl hasTrait ts else endBounds hasTrait
  | captured =>
    if begins [.greater] ts then .one []
    else if isLifetime ts || isWord ts || isKeyword .selfType ts then
      .one [.angleSeparator (.type .captured)]
    else .refuse
  | oneBound => if isLifetime ts then .one [] else startTraitBound false ts
  | addedBounds otherwise =>
    if begins [.plus] ts then .one [.type .oneBound, .type (.addedBounds .plain)]
    else .leave otherwise
  | traitBound constAllowed => startBareTrait constAllowed ts
  | traitConst constAllowed hasBinder => startTraitConst constAllowed hasBinder ts
  | traitModifier hasBinder => startTraitModifier hasBinder ts
  | boundList => startBoundList ts
  | boundListMore => if begins [.plus] ts then .one [.type .boundList] else .leave .plain
  | lifetimeList => if isLifetime ts then .one [.type .lifetimeListMore] else .leave .plain
  | lifetimeListMore => if begins [.plus] ts then .one [.type .lifetimeList] else .leave .plain

end EnumNames.Target
