import EnumNames.Target.Expression
import EnumNames.Target.Item

/-!
# Statements

What a block consists of: items, bindings of values, and expressions. An expression ends in a
semicolon or at the end of the block, except one that ends in a block itself: nothing has to follow
it, and only a member or a question mark makes it a part of a longer expression.
-/

namespace EnumNames.Target

/-! ## Items among statements -/

/-- Whether the words of a function that may follow others stand ahead. -/
def isFunctionWord (ts : List Token) : Bool :=
  isKeywordOf [.unsafeKw, .externKw, .fnKw] ts

/-- Whether an item that begins with a keyword stands ahead; some keywords begin closures or blocks
as well. -/
def isKeywordItem (k : Keyword) (next : List Token) : Bool :=
  match k with
  | .pubKw | .externKw | .useKw | .fnKw | .modKw | .typeKw | .structKw | .enumKw | .traitKw
  | .implKw | .macroKw => true
  | .crateKw => !begins [.colon, .colon] next
  | .staticKw => isKeyword .mutKw next || isWord next
  | .constKw =>
    !(isOpening .brace next || isKeywordOf [.staticKw, .moveKw] next || begins [.pipe] next
      || isKeyword .asyncKw next && !isFunctionWord (next.drop 1))
  | .unsafeKw => !isOpening .brace next
  | .asyncKw => isFunctionWord next
  | _ => false

/-- What follows the path and the mark of a macro, if they stand ahead. -/
def afterMacroMark? (ts : List Token) : Option (List Token) :=
  match afterPlainPath? ts with
  | some next => if begins [.bang] next then some (next.drop 1) else none
  | none => none

/-- Whether the use of a macro that gives a name stands ahead, which is an item. -/
def isMacroItem (ts : List Token) : Bool :=
  match afterMacroMark? ts with
  | some next => isWord next || isKeyword .tryKw next
  | none => false

/-- Whether the use of a macro with braces stands ahead. -/
def isMacroBlock (ts : List Token) : Bool :=
  match afterMacroMark? ts with
  | some next => isOpening .brace next
  | none => false

/-- Whether an item stands ahead. -/
def isItem (ts : List Token) : Bool :=
  let next := ts.drop 1
  isNamed "union" ts && isWord next || isNamed "auto" ts && isKeyword .traitKw next
    || isNamed "default" ts && isKeywordOf [.unsafeKw, .implKw] next || isMacroItem ts
    || match ts with
      | .keyword k :: _ => isKeywordItem k next
      | _ => false

/-! ## Statements -/

/-- Begins a statement, which the other statements of the block follow. -/
def startStatement (ts : List Token) : Move :=
  if begins [.pound] ts then .attributed (.statement .single)
  else if isMacroBlock ts then
    (startPlainPath ts).andThen [.signs [.bang], .group, .statement .blockEnd]
  else if isKeyword .letKw ts then .one [.pattern .single, .type .optType, .statement .letValue]
  else if isItem ts then (startItem ts).andThen [.statement .list]
  else match startBlockLike? ts with
    | some move => move.andThen [.statement .blockEnd]
    | none =>
      (startBareOperand true ts).andThen
        [.expr (.operators true Level.jump.rank), .statement .expressionEnd]

/-- Begins the statements that are left of a block, or ends it. -/
def startStatements (ts : List Token) : Move :=
  if isClosing .brace ts then .one []
  else if begins [.semi] ts then .one [.statement .list]
  else startStatement ts

/-! ## Steps -/

/-- What becomes of a goal of statements. A value that ends in a brace has no alternative, which
`afterBrace` tells. -/
def StatementGoal.step (g : StatementGoal) (afterBrace : Bool) (ts : List Token) : Move :=
  match g with
  | list => startStatements ts
  | single => startStatement ts
  | expressionEnd =>
    if begins [.semi] ts then .one [.statement .list]
    else if isClosing .brace ts then .one []
    else .refuse
  | blockEnd =>
    match continueBlock? ts with
    | some move => move.andThen [.statement .expressionEnd]
    | none => startStatements ts
  | letValue =>
    if begins [.eq] ts then .one [.anyExpr, .statement .letElse]
    else if begins [.semi] ts then .one [.statement .list]
    else .refuse
  | letElse =>
    if begins [.semi] ts then .one [.statement .list]
    else if isKeyword .elseKw ts && !afterBrace then
      .one (Goal.block ++ [.semicolon, .statement .list])
    else .refuse

end EnumNames.Target
