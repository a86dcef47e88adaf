import EnumNames.Target.Path

/-!
# Patterns

What a value is compared with: names, literals, ranges of them, and the forms of structures, tuples
and slices. A pattern may have alternatives; `startPattern` begins one without them.
-/

namespace EnumNames.Target

/-! ## Bounds of ranges -/

/-- Whether something stands ahead that a range without an upper bound ends at. -/
def endsRange (ts : List Token) : Bool :=
  isEnd ts || begins [.pipe] ts || begins [.eq] ts || isColonAlone ts || begins [.comma] ts
    || begins [.semi] ts || isKeyword .ifKw ts

/-- Begins a bound of a range. -/
def startBound (ts : List Token) : Move :=
  match literalAhead? ts with
  | some extra => .take extra []
  | none =>
    if isPath ts then startPath .expression ts
    else if isKeyword .constKw ts then .one Goal.body
    else .refuse

/-- The dots of a range after its lower bound. Three of them mean that the upper bound is included,
and then there has to be one. -/
def startRange? (ts : List Token) : Option Move :=
  if begins [.dot, .dot, .eq] ts || begins [.dot, .dot, .dot] ts then
    some (.take 2 [.pattern .bound])
  else if begins [.dot, .dot] ts then some (.take 1 [.pattern .optBound])
  else none

/-! ## Patterns -/

/-- Whether a pattern that begins with a path stands ahead, not a name for the value. -/
def isPathPattern (ts : List Token) : Bool :=
  let next := ts.drop 1
  isWord ts && (begins [.colon, .colon] next || begins [.bang] next || isOpening .brace next
      || isOpening .paren next || begins [.dot, .dot] next)
    || isKeyword .selfValue ts && begins [.colon, .colon] next
    || begins [.colon, .colon] ts || begins [.less] ts
    || isKeywordOf [.selfType, .superKw, .crateKw] ts

/-- Begins a pattern without alternatives at its top. -/
def startPattern (ts : List Token) : Move :=
  if isPathPattern ts then (startPath .expression ts).andThen [.pattern .pathEnd]
  else match literalAhead? ts with
  | some extra => .take extra [.pattern .literalEnd]
  | none =>
    match ts with
    | .keyword .underscore :: _ => .one []
    | .keyword .boxKw :: _ => .one [.pattern .single, .shape .plain]
    | .keyword .constKw :: _ => .one (Goal.body ++ [.pattern .literalEnd])
    | .keyword .refKw :: _ =>
      .one [.optKeyword .mutKw, .pattern .name, .pattern .optSubpattern]
    | .keyword .mutKw :: _ => .one [.pattern .name, .pattern .optSubpattern]
    | .keyword .selfValue :: _ | .word _ :: _ => .one [.pattern .optSubpattern]
    | .sign .amp _ :: _ => .one [.optKeyword .mutKw, .pattern .single, .shape .plain]
    | .opening .paren :: _ => .one [.pattern (.list .paren)]
    | .opening .square :: _ => .one [.pattern (.list .square)]
    | _ =>
      if begins [.dot, .dot, .dot] ts then .refuse
      else if begins [.dot, .dot, .eq] ts then .take 2 [.pattern .bound, .shape .openRange]
      else if begins [.dot, .dot] ts then .take 1 [.pattern .restOrBound]
      else .refuse

/-- Begins a pattern, which may have alternatives at its top and a bar before the first one. -/
def startAlternatives (ts : List Token) : Move :=
  if begins [.pipe] ts then .one [.pattern .single, .pattern (.alternatives true)]
  else (startPattern ts).andThen [.pattern (.alternatives false)]

/-- Whether a bar stands ahead that begins another alternative. -/
def isAlternative (ts : List Token) : Bool :=
  begins [.pipe] ts && !begins [.pipe, .pipe] ts && !begins [.pipe, .eq] ts

/-- Goes on after the path of a pattern, `p` telling its form. -/
def endPathPattern (p : PathShape) (ts : List Token) : Move :=
  if p.bare && isBangAlone ts then .one [.group]
  else if isOpening .brace ts then .one [.pattern .fields]
  else if isOpening .paren ts then .one [.pattern (.list .paren)]
  else (startRange? ts).getD (.leave .plain)

/-! ## Fields -/

/-- Begins the pattern of a field. The rest of the fields may be left out at the end. -/
def startPatternField (ts : List Token) : Move :=
  let next : Goal := .separator .brace (.pattern .fields)
  if begins [.pound] ts then .attributed (.pattern .field)
  else if begins [.dot, .dot] ts then .take 1 [.closing .brace]
  else match ts with
    | .keyword .boxKw :: _ => .one [.optKeyword .refKw, .optKeyword .mutKw, .word, next]
    | .keyword .refKw :: _ => .one [.optKeyword .mutKw, .word, next]
    | .keyword .mutKw :: _ => .one [.word, next]
    | .word _ :: _ => .one [.pattern .fieldValue]
    | .literal .index :: _ => .one [.signs [.colon], .pattern .whole, next]
    | _ => .refuse

/-! ## Steps -/

/-- What becomes of a goal of patterns. -/
def PatternGoal.step (g : PatternGoal) (s : Shape) (ts : List Token) : Move :=
  match g with
  | single => startPattern ts
  | whole => startAlternatives ts
  | alternatives isChoice =>
    if isAlternative ts then .one [.pattern .single, .pattern (.alternatives true)]
    else .leave (if isChoice then .plain else s)
  | pathEnd =>
    match s with
    | .path p => endPathPattern p ts
    | _ => .leave s
  | literalEnd => (startRange? ts).getD (.leave .plain)
  | bound => startBound ts
  | optBound => if endsRange ts then .leave .openRange else startBound ts
  | restOrBound =>
    if endsRange ts then .leave .plain else (startBound ts).andThen [.shape .openRange]
  | name => if isWord ts || isKeyword .selfValue ts then .one [] else .refuse
  | optSubpattern =>
    if begins [.at] ts then .one [.pattern .single, .shape .plain] else .leave .plain
  | list b =>
    if isClosing b ts then .one []
    else (startAlternatives ts).andThen [.pattern (.listEnd b)]
  | listEnd b =>
    if b = .square && s = .openRange then .refuse
    else .separator b (.pattern (.list b)) ts
  | fields => if isClosing .brace ts then .one [] else startPatternField ts
  | field => startPatternField ts
  | fieldValue =>
    if begins [.colon] ts then .one [.pattern .whole, .separator .brace (.pattern .fields)]
    else .separator .brace (.pattern .fields) ts

end EnumNames.Target
