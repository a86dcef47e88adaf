import EnumNames.Target.Generics
import EnumNames.Target.Pattern

/-!
# Items

The declarations of a file, of a module, and of the blocks that hold members. Most items begin with
a keyword of their own, after attributes and a mark of visibility; some words only begin one before
certain others.

* `startItem` begins an item, `startMember` one that is a member of a block.
* `ItemGoal.step` is what becomes of a goal of this family.
-/

namespace EnumNames.Target

/-! ## Functions -/

/-- What follows the keyword of a function. -/
def functionRest : List Goal :=
  [.word, .generics .optional, .opening .paren, .item (.functionParameters true),
    .type (.optReturn .open), .generics .optWhere, .item .functionBody]

/-- The goal after a parameter. -/
def afterFunctionParameter : Goal :=
  .separator .paren (.item (.functionParameters false))

/-- What stands ahead after the words that may precede the receiver of a method, and whether it is a
reference. -/
def afterReference (ts : List Token) : Bool × List Token :=
  let isReference := begins [.amp] ts
  let referent := if isReference then ts.drop 1 else ts
  let aged := if isReference && isLifetime referent then referent.drop 1 else referent
  (isReference, dropKeyword .mutKw aged)

/-- Whether the receiver of a method stands ahead, not a path that begins with the same word. -/
def isReceiver (ts : List Token) : Bool :=
  let found := afterReference ts
  isKeyword .selfValue found.2 && (found.1 || !begins [.colon, .colon] (found.2.drop 1))

/-- Begins a parameter. Only the first one may be a receiver. -/
def startFunctionParameter (isFirst : Bool) (ts : List Token) : Move :=
  if begins [.pound] ts then .attributed (.item (.functionParameter isFirst))
  else if begins [.dot, .dot, .dot] ts then .take 2 lastParameterRest
  else if isReceiver ts then
    if !isFirst then .refuse
    else if begins [.amp] ts then
      .one [.optLifetime, .optKeyword .mutKw, .keyword .selfValue, afterFunctionParameter]
    else if isKeyword .mutKw ts then .one [.keyword .selfValue, .item .receiverType]
    else .one [.item .receiverType]
  else if isWord ts && begins [.less] (ts.drop 1) then
    (startType .open ts).andThen [afterFunctionParameter]
  else (startPattern ts).andThen [.signs [.colon], .item .functionParameterType]

/-! ## Marks of visibility -/

/-- Goes on after a mark of visibility. A parenthesis after it may also open the type of a field. -/
def startRestriction (ts : List Token) : Move :=
  let inside := ts.drop 1
  if isOpening .paren ts then
    if isKeywordOf [.crateKw, .selfValue, .superKw] inside && isClosing .paren (ts.drop 2) then
      .take 2 []
    else if isKeyword .inKw inside then .take 1 [.path .plain, .closing .paren]
    else .leave .plain
  else .leave .plain

/-! ## Imports -/

/-- Begins the tree of an import. -/
def startUseTree (rootAllowed : Bool) (ts : List Token) : Move :=
  if isWord ts || isKeywordOf [.selfValue, .superKw, .crateKw, .tryKw] ts then .one [.item .useMore]
  else if begins [.star] ts then .one []
  else if isOpening .brace ts then .one [.item (.useList rootAllowed)]
  else .refuse

/-- Begins one of several trees of an import. -/
def startUseList (rootAllowed : Bool) (ts : List Token) : Move :=
  let next : Goal := .separator .brace (.item (.useList rootAllowed))
  if isClosing .brace ts then .one []
  else if rootAllowed && begins [.colon, .colon] ts then .take 1 [.item (.useTree false), next]
  else (startUseTree rootAllowed ts).andThen [next]

/-! ## Structures and enumerations -/

/-- What follows the keyword of an enumeration. -/
def enumRest : List Goal :=
  [.word, .generics .optional, .generics .optWhere, .opening .brace, .item .variants]

/-- What follows the keyword of a union. -/
def unionRest : List Goal :=
  [.word, .generics .optional, .generics .optWhere, .opening .brace, .item .structFields]

/-- Takes the name of a field. One without a name may have its own fields as its type. -/
def startFieldName (ts : List Token) : Move :=
  if isWord ts then .one [.signs [.colon], .anyType, .separator .brace (.item .structFields)]
  else if isKeyword .underscore ts then .one [.signs [.colon], .item .fieldType]
  else .refuse

/-- Begins a field. -/
def startField (ts : List Token) : Move :=
  if begins [.pound] ts then .attributed (.item .structField)
  else if isKeyword .pubKw ts then .one [.item .restriction, .item .fieldName]
  else startFieldName ts

/-- Begins a field of a tuple. -/
def startTupleField (ts : List Token) : Move :=
  let next : Goal := .separator .paren (.item .tupleFields)
  if begins [.pound] ts then .attributed (.item .tupleField)
  else if isKeyword .pubKw ts then .one [.item .restriction, .anyType, next]
  else (startType .open ts).andThen [next]

/-- Begins a variant. -/
def startVariant (ts : List Token) : Move :=
  let next : List Goal :=
    [.item .variantBody, .item .optValue, .separator .brace (.item .variants)]
  if begins [.pound] ts then .attributed (.item .variant)
  else if isKeyword .pubKw ts then .one (.item .restriction :: .word :: next)
  else if isWord ts then .one next
  else .refuse

/-- Takes what a structure consists of; without conditions before it, it may be a tuple. -/
def startStructRest (ts : List Token) : Move :=
  if isOpening .brace ts then .one [.item .structFields]
  else if begins [.semi] ts then .one []
  else .refuse

/-! ## Traits and implementations -/

/-- The members of a block, which may begin with attributes. -/
def membersRest (place : MemberPlace) : List Goal :=
  [.opening .brace, .innerAttributes, .item (.members place)]

/-- What follows the keyword of a trait that has members. -/
def traitRest : List Goal :=
  [.word, .generics .optional, .item .optBounds, .generics .optWhere] ++ membersRest .traitBlock

/-- What follows the type of an implementation. -/
def implRest : List Goal :=
  .generics .optWhere :: membersRest .implBlock

/-- Begins the type of an implementation. One that is denied has to be for a type. -/
def startImplPolarity (ts : List Token) : Move :=
  if begins [.bang] ts && !isOpening .brace (ts.drop 1) then
    .one (.anyType :: .keyword .forKw :: .anyType :: implRest)
  else (startType .open ts).andThen (.item .implFor :: implRest)

/-- Goes on with an implementation after its parameters. -/
def startImplConst (ts : List Token) : Move :=
  if isKeyword .constKw ts then .one [.item .implPolarity]
  else if begins [.question] ts && isKeyword .constKw (ts.drop 1) then
    .take 1 [.item .implPolarity]
  else startImplPolarity ts

/-- Begins an implementation; some words before its keyword have been looked at. -/
def startImpl (extra : Nat) (ts : List Token) : Move :=
  if isGenerics (ts.drop (extra + 1)) then
    .take (extra + 1) [.generics (.parameters true), .item .implConst]
  else .take extra [.item .implConst]

/-! ## Smaller items -/

/-- What follows the keyword of a module. -/
def moduleRest : List Goal :=
  [.item .moduleName, .item .moduleBody]

/-- What follows the keyword of a constant. -/
def constantRest : List Goal :=
  [.nameOrUnderscore, .generics .optional, .signs [.colon], .anyType, .item .optValue,
    .generics .optWhere, .semicolon]

/-- What follows the keyword of a static variable outside of the program. -/
def foreignStaticRest : List Goal :=
  [.optKeyword .mutKw, .word, .signs [.colon], .anyType, .item .optValue, .semicolon]

/-- What follows the keyword of the type of a member. -/
def memberTypeRest : List Goal :=
  [.word, .generics .optional, .item .optBounds, .item .optDefinition, .generics .optWhere,
    .semicolon]

/-- What follows the keyword of a block of declarations outside of the program. -/
def foreignBlockRest : List Goal :=
  .optText :: membersRest .foreignBlock

/-- Whether the use of a macro may stand ahead. -/
def isMacroPath (ts : List Token) : Bool :=
  isPathName ts && !isKeyword .selfType ts || begins [.colon, .colon] ts

/-- Takes the tokens of a macro, after which a semicolon stands unless they are in braces. -/
def startMacroGroup (ts : List Token) : Move :=
  match ts with
  | .opening .brace :: _ => .one [.inside .brace]
  | .opening b :: _ => .one [.inside b, .semicolon]
  | _ => .refuse

/-! ## Items -/

/-- Begins an item that is marked as unsafe. -/
def startUnsafeItem (isMarked : Bool) (rest : List Token) : Move :=
  match rest with
  | .keyword .traitKw :: _ => .take 1 traitRest
  | .keyword .implKw :: _ => startImpl 1 (.keyword .unsafeKw :: rest)
  | .keyword .externKw :: _ => if isMarked then .refuse else .take 1 foreignBlockRest
  | .keyword .modKw :: _ => .take 1 moduleRest
  | .word "auto" :: .keyword .traitKw :: _ => .take 2 traitRest
  | _ => .refuse

/-- Begins an item with a word that is no keyword, or the use of a macro. -/
def startNamedItem (isMarked : Bool) (ts : List Token) : Move :=
  let next := ts.drop 1
  if isNamed "union" ts && isWord next then .one unionRest
  else if isNamed "auto" ts && isKeyword .traitKw next then .take 1 traitRest
  else if isNamed "default" ts && !begins [.bang] next then
    if isKeyword .implKw next then startImpl 1 ts
    else if isKeyword .unsafeKw next && isKeyword .implKw (next.drop 1) then startImpl 2 ts
    else .refuse
  else if !isMarked && isMacroPath ts then
    (startPlainPath ts).andThen [.signs [.bang], .item .macroName]
  else .refuse

/-- Begins an item that is no function. `isMarked` tells whether a mark of visibility precedes
it. -/
def startOtherItem (isMarked : Bool) (ts : List Token) : Move :=
  match ts with
  | .keyword .externKw :: .keyword .crateKw :: _ =>
    .take 1 [.item .crateName, .item .optRename, .semicolon]
  | .keyword .externKw :: _ => if isMarked then .refuse else .one foreignBlockRest
  | .keyword .useKw :: rest =>
    if begins [.colon, .colon] rest then .take 2 [.item (.useTree false), .semicolon]
    else .one [.item (.useTree true), .semicolon]
  | .keyword .staticKw :: _ => .one [.optKeyword .mutKw, .word, .item .staticEnd]
  | .keyword .constKw :: _ => .one constantRest
  | .keyword .unsafeKw :: rest => startUnsafeItem isMarked rest
  | .keyword .modKw :: _ => .one moduleRest
  | .keyword .typeKw :: _ =>
    .one [.word, .generics .optional, .item .optBounds, .generics .optWhere, .item .optDefinition,
      .semicolon]
  | .keyword .structKw :: _ => .one [.word, .generics .optional, .item .structBody]
  | .keyword .enumKw :: _ => .one enumRest
  | .keyword .traitKw :: _ => .one [.word, .generics .optional, .item .traitBody]
  | .keyword .implKw :: _ => startImpl 0 ts
  | .keyword .macroKw :: _ =>
    .one [.word, .item .macroParameters, .opening .brace, .inside .brace]
  | _ => startNamedItem isMarked ts

/-- Begins an item after attributes and a mark of visibility. -/
def startMarkedItem (isMarked : Bool) (ts : List Token) : Move :=
  match functionWords? false ts with
  | some extra => .take extra functionRest
  | none => startOtherItem isMarked ts

/-- Begins an item after attributes. -/
def startItem (ts : List Token) : Move :=
  if isKeyword .pubKw ts then .one [.item .restriction, .item .marked]
  else startMarkedItem false ts

/-- Begins an item. -/
def startAttributedItem (ts : List Token) : Move :=
  if begins [.pound] ts then .attributed (.item .single) else startItem ts

/-! ## Members -/

/-- Begins a member that is neither a function nor marked as a default. -/
def startOtherMember (place : MemberPlace) (isMarked : Bool) (ts : List Token) : Move :=
  let macroUse : Move :=
    if !isMarked && isMacroPath ts then
      (startPlainPath ts).andThen [.signs [.bang], .item .macroGroup]
    else .refuse
  match place with
  | .foreignBlock =>
    match ts with
    | .keyword .typeKw :: _ =>
      .one [.word, .generics .optional, .item .optBounds, .item .foreignTypeEnd]
    | .keyword .staticKw :: _ => .one foreignStaticRest
    | .keyword .unsafeKw :: .keyword .staticKw :: _ => .take 1 foreignStaticRest
    | .word "safe" :: .keyword .staticKw :: _ => .take 1 foreignStaticRest
    | _ => macroUse
  | .traitBlock | .implBlock =>
    match ts with
    | .keyword .typeKw :: _ => .one memberTypeRest
    | .keyword .constKw :: _ => .one constantRest
    | _ => macroUse

/-- Begins a member after attributes and marks. Functions outside of the program may be marked as
safe. -/
def startMarkedMember (place : MemberPlace) (isMarked : Bool) (ts : List Token) : Move :=
  match functionWords? (place = .foreignBlock) ts with
  | some extra => .take extra functionRest
  | none => startOtherMember place isMarked ts

/-- Whether a member is marked as a default here. In a trait the word always is such a mark. -/
def isDefaultMark (place : MemberPlace) (ts : List Token) : Bool :=
  isNamed "default" ts &&
    (place = .traitBlock || place = .implBlock && !begins [.bang] (ts.drop 1))

/-- Begins a member after attributes and a mark of visibility. -/
def startVisibleMember (place : MemberPlace) (isMarked : Bool) (ts : List Token) : Move :=
  if isDefaultMark place ts then .one [.item (.memberDefault place)]
  else startMarkedMember place isMarked ts

/-- Begins a member. -/
def startMember (place : MemberPlace) (ts : List Token) : Move :=
  if begins [.pound] ts then .attributed (.item (.member place))
  else if isKeyword .pubKw ts then .one [.item .restriction, .item (.memberMarked place)]
  else startVisibleMember place false ts

/-! ## Steps -/

/-- What becomes of a goal of items. -/
def ItemGoal.step (g : ItemGoal) (ts : List Token) : Move :=
  match g with
  | file => if ts.isEmpty then .leave .plain else (startAttributedItem ts).andThen [.item .file]
  | module =>
    if isClosing .brace ts then .one [] else (startAttributedItem ts).andThen [.item .module]
  | single => startAttributedItem ts
  | marked => startMarkedItem true ts
  | restriction => startRestriction ts
  | macroName =>
    if isWord ts || isKeyword .tryKw ts then .one [.item .macroGroup] else startMacroGroup ts
  | macroGroup => startMacroGroup ts
  | macroParameters => if isOpening .paren ts then .one [.inside .paren] else .leave .plain
  | crateName => if isWord ts || isKeyword .selfValue ts then .one [] else .refuse
  | optRename => if isKeyword .asKw ts then .one [.nameOrUnderscore] else .leave .plain
  | optValue => if begins [.eq] ts then .one [.anyExpr] else .leave .plain
  | staticEnd =>
    if begins [.eq] ts then .one [.anyExpr, .semicolon]
    else if begins [.colon] ts then .one [.anyType, .item .optValue, .semicolon]
    else .refuse
  | moduleName => if isWord ts || isKeyword .tryKw ts then .one [] else .refuse
  | moduleBody =>
    if begins [.semi] ts then .one []
    else if isOpening .brace ts then .one [.innerAttributes, .item .module]
    else .refuse
  | optBounds => if begins [.colon] ts then .one [.type .boundList] else .leave .plain
  | optDefinition => if begins [.eq] ts then .one [.anyType] else .leave .plain
  | foreignTypeEnd =>
    if isKeyword .whereKw ts then (startWhere ts).andThen [.item .optDefinition, .semicolon]
    else if begins [.eq] ts then .one [.anyType, .generics .optWhere, .semicolon]
    else if begins [.semi] ts then .one []
    else .refuse
  | functionBody =>
    if begins [.semi] ts then .one []
    else if isOpening .brace ts then .one Goal.bodyRest
    else .refuse
  | functionParameters isFirst =>
    if isClosing .paren ts then .one [] else startFunctionParameter isFirst ts
  | functionParameter isFirst => startFunctionParameter isFirst ts
  | receiverType =>
    if begins [.colon] ts then .one [.item .functionParameterType]
    else .separator .paren (.item (.functionParameters false)) ts
  | functionParameterType =>
    if begins [.dot, .dot, .dot] ts then .take 2 lastParameterRest
    else (startType .open ts).andThen [afterFunctionParameter]
  | useTree rootAllowed => startUseTree rootAllowed ts
  | useMore =>
    if begins [.colon, .colon] ts then .take 1 [.item (.useTree false)]
    else if isKeyword .asKw ts then .one [.nameOrUnderscore]
    else .leave .plain
  | useList rootAllowed => startUseList rootAllowed ts
  | structBody =>
    if isKeyword .whereKw ts then (startWhere ts).andThen [.item .structRest]
    else if isOpening .paren ts then .one [.item .tupleFields, .generics .optWhere, .semicolon]
    else startStructRest ts
  | structRest => startStructRest ts
  | structFields => if isClosing .brace ts then .one [] else startField ts
  | structField => startField ts
  | fieldName => startFieldName ts
  | fieldType =>
    let next : Goal := .separator .brace (.item .structFields)
    if isKeyword .structKw ts then .one [.opening .brace, .item .structFields, next]
    else if isNamed "union" ts && isOpening .brace (ts.drop 1) then
      .take 1 [.item .structFields, next]
    else (startType .open ts).andThen [next]
  | tupleFields => if isClosing .paren ts then .one [] else startTupleField ts
  | tupleField => startTupleField ts
  | variants => if isClosing .brace ts then .one [] else startVariant ts
  | variant => startVariant ts
  | variantBody =>
    if isOpening .brace ts then .one [.item .structFields]
    else if isOpening .paren ts then .one [.item .tupleFields]
    else .leave .plain
  | traitBody =>
    if begins [.eq] ts then .one [.type .boundList, .generics .optWhere, .semicolon]
    else if begins [.colon] ts then
      .one (.type .boundList :: .generics .optWhere :: membersRest .traitBlock)
    else if isKeyword .whereKw ts then (startWhere ts).andThen (membersRest .traitBlock)
    else if isOpening .brace ts then .one [.innerAttributes, .item (.members .traitBlock)]
    else .refuse
  | implConst => startImplConst ts
  | implPolarity => startImplPolarity ts
  | implFor => if isKeyword .forKw ts then .one [.anyType] else .leave .plain
  | members place =>
    if isClosing .brace ts then .one []
    else (startMember place ts).andThen [.item (.members place)]
  | member place => startMember place ts
  | memberMarked place => startVisibleMember place true ts
  | memberDefault place => startMarkedMember place true ts

end EnumNames.Target
