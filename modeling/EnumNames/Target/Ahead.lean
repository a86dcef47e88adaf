import EnumNames.Target.Token

/-!
# What stands ahead

Questions about the tokens that come next. They look as far ahead as a rule of the grammar needs,
which is never further than past a plain path or the words before the name of a function.
-/

namespace EnumNames.Target

/-- Whether some signs stand ahead, each but the last one joined to the next. -/
def begins : List Sign → List Token → Bool
  | [], _ => true
  | [s], .sign s' _ :: _ => s == s'
  | s :: s' :: l, .sign t true :: ts => s == t && begins (s' :: l) ts
  | _, _ => false

/-- Whether a keyword stands ahead. -/
def isKeyword (k : Keyword) : List Token → Bool
  | .keyword k' :: _ => k == k'
  | _ => false

/-- Whether one of some keywords stands ahead. -/
def isKeywordOf (l : List Keyword) : List Token → Bool
  | .keyword k :: _ => l.contains k
  | _ => false

/-- Whether an opening bracket stands ahead. -/
def isOpening (b : Bracket) : List Token → Bool
  | .opening b' :: _ => b == b'
  | _ => false

/-- Whether a closing bracket stands ahead. -/
def isClosing (b : Bracket) : List Token → Bool
  | .closing b' :: _ => b == b'
  | _ => false

/-- Whether an identifier stands ahead. -/
def isWord : List Token → Bool
  | .word _ :: _ => true
  | _ => false

/-- Whether a certain identifier stands ahead; some have a meaning of their own in certain places
without being keywords. -/
def isNamed (name : String) : List Token → Bool
  | .word name' :: _ => name == name'
  | _ => false

/-- Whether an identifier or a keyword stands ahead. -/
def isAnyWord : List Token → Bool
  | .word _ :: _ | .keyword _ :: _ => true
  | _ => false

/-- Whether a lifetime stands ahead. -/
def isLifetime : List Token → Bool
  | .lifetime :: _ => true
  | _ => false

/-- Whether a bracket or the text ends here. -/
def isEnd : List Token → Bool
  | [] | .closing _ :: _ => true
  | _ => false

/-! ## Longer pieces -/

/-- How many tokens follow the first one of a literal that stands ahead; a number may have a minus
sign. -/
def literalAhead? : List Token → Option Nat
  | .literal _ :: _ | .keyword .trueKw :: _ | .keyword .falseKw :: _ => some 0
  | .sign .minus _ :: .literal kind :: _ => if kind.isNumber then some 1 else none
  | _ => none

/-- Whether a keyword may begin a path or stand in it. -/
def Keyword.inPath : Keyword → Bool
  | .selfValue | .selfType | .superKw | .crateKw => true
  | _ => false

/-- Whether a name that may begin a path stands ahead. -/
def isPathName : List Token → Bool
  | .word _ :: _ => true
  | .keyword k :: _ => k.inPath
  | _ => false

/-- Whether a path stands ahead, perhaps one that begins with a type in angle brackets. -/
def isPath (ts : List Token) : Bool :=
  isPathName ts || begins [.colon, .colon] ts || begins [.less] ts

/-- Whether generic arguments without a path separator stand ahead, not a comparison. -/
def isLessAlone (ts : List Token) : Bool :=
  begins [.less] ts && !begins [.less, .eq] ts && !begins [.less, .less, .eq] ts

/-- Whether a dot that begins a member stands ahead, not a range. -/
def isDotAlone (ts : List Token) : Bool :=
  begins [.dot] ts && !begins [.dot, .dot] ts

/-- Whether a mark of a macro stands ahead, not an inequality. -/
def isBangAlone (ts : List Token) : Bool :=
  begins [.bang] ts && !begins [.bang, .eq] ts

/-- Whether a colon stands ahead that is no part of a path separator. -/
def isColonAlone (ts : List Token) : Bool :=
  begins [.colon] ts && !begins [.colon, .colon] ts

/-- Whether a path separator and an opening parenthesis stand ahead. -/
def isPathParen (ts : List Token) : Bool :=
  begins [.colon, .colon] ts && isOpening .paren (ts.drop 2)

/-- Whether a path separator and generic arguments stand ahead. -/
def isPathLess (ts : List Token) : Bool :=
  begins [.colon, .colon] ts && begins [.less] (ts.drop 2)

/-- Whether generic parameters stand ahead, not a type in angle brackets that begins a path. -/
def isGenerics (ts : List Token) : Bool :=
  let inside := ts.drop 1
  let next := ts.drop 2
  begins [.less] ts &&
    (begins [.greater] inside || begins [.pound] inside || isKeyword .constKw inside
      || (isLifetime inside || isWord inside)
        && (begins [.greater] next || begins [.comma] next || isColonAlone next
          || begins [.eq] next))

/-- Drops a keyword that may stand ahead. -/
def dropKeyword (k : Keyword) (ts : List Token) : List Token :=
  if isKeyword k ts then ts.drop 1 else ts

/-- How many tokens name a calling convention here. -/
def conventionSize : List Token → Nat
  | .keyword .externKw :: .literal .text :: _ => 2
  | .keyword .externKw :: _ => 1
  | _ => 0

/-- How many words stand before the keyword of a function, if one stands ahead. Where functions are
only declared, one may be marked as safe; `safeAllowed` tells whether this is such a place. -/
def functionWords? (safeAllowed : Bool) (ts : List Token) : Option Nat :=
  let isSafetyMark (ts : List Token) := isKeyword .unsafeKw ts || safeAllowed && isNamed "safe" ts
  let afterConst := (isKeyword .constKw ts).toNat
  let afterAsync := afterConst + (isKeyword .asyncKw (ts.drop afterConst)).toNat
  let afterSafety := afterAsync + (isSafetyMark (ts.drop afterAsync)).toNat
  let words := afterSafety + conventionSize (ts.drop afterSafety)
  if isKeyword .fnKw (ts.drop words) then some words else none

/-- What follows the names of a path without arguments, if one stands ahead. -/
def afterPlainPath? : List Token → Option (List Token)
  | .sign .colon true :: .sign .colon _ :: ts => afterName ts
  | ts => afterName ts
where
  /-- What follows the names, the first of which stands ahead. -/
  afterName : List Token → Option (List Token)
    | t :: .sign .colon true :: .sign .colon _ :: ts =>
      if isPathName [t] then afterName ts else none
    | t :: ts => if isPathName [t] then some ts else none
    | [] => none

end EnumNames.Target
