import EnumNames.Target.Goal

/-!
# Paths

Names joined by separators. A path may begin with a type in angle brackets, and its names may have
arguments; `startPlainPath` is for the places where they may not. What follows a path often depends
on its form, so that a finished path leaves its `PathShape`.
-/

namespace EnumNames.Target

/-! ## Paths with arguments -/

namespace PathShape

/-- Goes on after a name with its arguments: to another name, or the path ends. A separator before a
parenthesis belongs to arguments, except in a path that begins with a type. -/
def more (p : PathShape) (style : PathStyle) (ts : List Token) : Move :=
  if begins [.colon, .colon] ts && (p.qualified || !isOpening .paren (ts.drop 2)) then
    .take 1 [.path (.segment style { p with single := false })]
  else
    .leave (.path p)

/-- Goes on after a name: to its arguments in angle brackets, or as after a name without any. A name
has them once. -/
def arguments (p : PathShape) (style : PathStyle) (ts : List Token) : Move :=
  let next : List Goal :=
    [.type .arguments, .path (.more style { p with bare := false, endsBare := false })]
  if isPathLess ts then .take 2 next
  else if style = .type && isLessAlone ts then .one next
  else { p with endsBare := true : PathShape }.more style ts

/-- Takes a name. Only identifiers and `Self` may have arguments. -/
def segment (p : PathShape) (style : PathStyle) (ts : List Token) : Move :=
  if isWord ts || isKeyword .selfType ts then .one [.path (.arguments style p)]
  else if isKeywordOf [.superKw, .selfValue, .crateKw, .tryKw] ts then
    .one [.path (.more style { p with endsBare := true })]
  else .refuse

end PathShape

/-- Begins a path with a name or a separator. -/
def startNamedPath (style : PathStyle) (ts : List Token) : Move :=
  if begins [.colon, .colon] ts then .take 1 [.path (.segment style {})]
  else { single := true : PathShape }.segment style ts

/-- Begins a path. -/
def startPath (style : PathStyle) (ts : List Token) : Move :=
  if begins [.less] ts then
    .one [.anyType, .path .optTrait, .signs [.greater], .signs [.colon, .colon],
      .path (.segment style { qualified := true, bare := false })]
  else startNamedPath style ts

/-! ## Paths without arguments -/

/-- Takes a name of a path without arguments. -/
def plainSegment (ts : List Token) : Move :=
  if isPathName ts then .one [.path .plainMore] else .refuse

/-- Begins a path without arguments. -/
def startPlainPath (ts : List Token) : Move :=
  if begins [.colon, .colon] ts then .take 1 [.path .plainSegment] else plainSegment ts

/-! ## Steps -/

/-- What becomes of a goal of paths. -/
def PathGoal.step (g : PathGoal) (ts : List Token) : Move :=
  match g with
  | trait => startNamedPath .type ts
  | segment style p => p.segment style ts
  | arguments style p => p.arguments style ts
  | more style p => p.more style ts
  | optTrait => if isKeyword .asKw ts then .one [.path .trait] else .leave .plain
  | plain => startPlainPath ts
  | plainSegment => Target.plainSegment ts
  | plainMore =>
    if begins [.colon, .colon] ts then .take 1 [.path .plainSegment] else .leave .plain

end EnumNames.Target
