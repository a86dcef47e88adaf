import EnumNames.Target.Type

/-!
# Generic parameters

Parameters of a declaration in angle brackets, and the conditions on them after `where`. The
parameters of a binder are of the same form, but none of them is an underscore.
-/

namespace EnumNames.Target

/-! ## Parameters -/

/-- The goal after a parameter. -/
def afterParameter (underscoreAllowed : Bool) : Goal :=
  .angleSeparator (.generics (.parameters underscoreAllowed))

/-- Begins a parameter. -/
def startParameter (underscoreAllowed : Bool) (ts : List Token) : Move :=
  if begins [.pound] ts then .attributed (.generics (.parameter underscoreAllowed))
  else if isLifetime ts then
    .one [.generics (.lifetimeBounds underscoreAllowed)]
  else if isWord ts then .one [.generics (.typeBounds underscoreAllowed)]
  else if isKeyword .constKw ts then
    .one [.word, .signs [.colon], .anyType, .generics .optConstDefault,
      afterParameter underscoreAllowed]
  else if underscoreAllowed && isKeyword .underscore ts then .one [afterParameter underscoreAllowed]
  else .refuse

/-! ## Conditions -/

/-- Whether something stands ahead that conditions end at. -/
def endsConditions (ts : List Token) : Bool :=
  isEnd ts || isOpening .brace ts || begins [.comma] ts || begins [.semi] ts || isColonAlone ts
    || begins [.eq] ts

/-- Begins a condition, or ends the conditions. -/
def startPredicates (ts : List Token) : Move :=
  let typeRest : List Goal :=
    [.signs [.colon], .type .boundList, .generics .predicateEnd]
  if endsConditions ts then .leave .plain
  else if isLifetime ts && begins [.colon] (ts.drop 1) then
    .take 1 [.type .lifetimeList, .generics .predicateEnd]
  else if isKeyword .forKw ts then .one (Goal.binder ++ .anyType :: typeRest)
  else (startType .open ts).andThen typeRest

/-- Begins conditions, if there are any. Parameters of the conditions themselves are reserved. -/
def startWhere (ts : List Token) : Move :=
  if isKeyword .whereKw ts then
    if isGenerics (ts.drop 1) then .refuse else .one [.generics .predicates]
  else .leave .plain

/-! ## Steps -/

/-- What becomes of a goal of generic parameters. -/
def GenericsGoal.step (g : GenericsGoal) (ts : List Token) : Move :=
  match g with
  | optional => if begins [.less] ts then .one [.generics (.parameters true)] else .leave .plain
  | parameters underscoreAllowed =>
    if begins [.greater] ts then .one [] else startParameter underscoreAllowed ts
  | parameter underscoreAllowed => startParameter underscoreAllowed ts
  | lifetimeBounds underscoreAllowed =>
    if begins [.colon] ts then .one [.type .lifetimeList, afterParameter underscoreAllowed]
    else .angleSeparator (.generics (.parameters underscoreAllowed)) ts
  | typeBounds underscoreAllowed =>
    if begins [.colon] ts then
      .one [.type .boundList, .generics .optTypeDefault, afterParameter underscoreAllowed]
    else if begins [.eq] ts then .one [.anyType, afterParameter underscoreAllowed]
    else .angleSeparator (.generics (.parameters underscoreAllowed)) ts
  | optTypeDefault => if begins [.eq] ts then .one [.anyType] else .leave .plain
  | optConstDefault => if begins [.eq] ts then .one [.generics .constDefault] else .leave .plain
  | constDefault =>
    match startConstant? ts with
    | some move => move
    | none => if isWord ts then .one [] else .refuse
  | optWhere => startWhere ts
  | predicates => startPredicates ts
  | predicateEnd => if begins [.comma] ts then .one [.generics .predicates] else .leave .plain

end EnumNames.Target
