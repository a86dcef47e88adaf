import EnumNames.Target.Generics
import EnumNames.Target.Statement

/-!
# Grammar of the emitted language

The grammar runs on a list of goals. The first goal meets the tokens ahead, and what its move leaves
of it takes its place; a goal that is left makes room for the next one. Every move takes a token or
drops a goal, so that a run ends.

* `Goal.step` is what becomes of a goal, `run` passes all tokens.
* `accepts` tells whether tokens make up a source file.
-/

namespace EnumNames.Target

/-! ## Pieces of all families -/

/-- Takes a token if it is as expected. -/
def Move.expect (found : Bool) : Move :=
  if found then .one [] else .refuse

/-- Takes a token if it is as expected, and otherwise leaves it. -/
def Move.optional (found : Bool) : Move :=
  if found then .one [] else .leave .plain

/-- Takes a token inside a bracket, with all of a bracket that it opens. -/
def startInside (b : Bracket) (ts : List Token) : Move :=
  match ts with
  | .closing b' :: _ => if b = b' then .one [] else .refuse
  | .opening b' :: _ => .one [.inside b', .inside b]
  | _ :: _ => .one [.inside b]
  | [] => .refuse

/-- Takes what opens a bracket of any kind. -/
def startBracket? (ts : List Token) : Option Move :=
  match ts with
  | .opening b :: _ => some (.one [.inside b])
  | _ => none

/-- Begins what stands between the brackets of an attribute. -/
def startAttribute (ts : List Token) : Move :=
  if isKeyword .unsafeKw ts then .one [.attributeEnd]
  else (startPlainPath ts).andThen [.attributeEnd]

/-- Begins what may follow the path of an attribute: tokens in brackets, or a value. -/
def endAttribute (ts : List Token) : Move :=
  match startBracket? ts with
  | some move => move
  | none => if begins [.eq] ts then .one [.attributeValue] else .leave .plain

/-- Begins the value of an attribute, which has no attributes itself. -/
def startAttributeValue (ts : List Token) : Move :=
  if begins [.pound] ts && isOpening .square (ts.drop 1) then .refuse else startExpr true ts

/-- Begins attributes of the construct around them, if there are any. -/
def startInnerAttributes (ts : List Token) : Move :=
  if begins [.pound] ts && begins [.bang] (ts.drop 1) then
    .take 1 [.opening .square, .attributeContent, .closing .square, .innerAttributes]
  else .leave .plain

/-! ## Steps -/

/-- What becomes of a goal in front of the tokens ahead. What was recognised last has the shape `s`,
and `afterBrace` tells whether it ended in a closing brace. -/
def Goal.step (g : Goal) (s : Shape) (afterBrace : Bool) (ts : List Token) : Move :=
  match g with
  | signs l => if begins l ts then .take (l.length - 1) [] else .refuse
  | keyword k => .expect (isKeyword k ts)
  | opening b => .expect (isOpening b ts)
  | closing b => .expect (isClosing b ts)
  | word => .expect (isWord ts)
  | nameOrUnderscore => .expect (isWord ts || isKeyword .underscore ts)
  | optSign s => .optional (begins [s] ts)
  | optKeyword k => .optional (isKeyword k ts)
  | optLifetime => .optional (isLifetime ts)
  | optText => .optional (ts.head? = some (.literal .text))
  | inside b => startInside b ts
  | group => (startBracket? ts).getD .refuse
  | attributeContent => startAttribute ts
  | attributeEnd => endAttribute ts
  | attributeValue => startAttributeValue ts
  | innerAttributes => startInnerAttributes ts
  | separator b again => .separator b again ts
  | angleSeparator again => .angleSeparator again ts
  | shape s => .leave s
  | path g => g.step ts
  | type g => g.step s ts
  | generics g => g.step ts
  | pattern g => g.step s ts
  | expr g => g.step s ts
  | statement g => g.step afterBrace ts
  | item g => g.step ts

/-- Whether goals and nothing else stand ahead. -/
def run (goals : List Goal) (s : Shape) (afterBrace : Bool) (ts : List Token) : Bool :=
  match goals with
  | [] => ts.isEmpty
  | g :: later =>
    match g.step s afterBrace ts with
    | .take extra next =>
      match ts with
      | [] => false
      | t :: rest =>
        run (next ++ later) .plain (extra = 0 && t = .closing .brace) (rest.drop extra)
    | .leave s' => run later s' afterBrace ts
    | .refuse => false
termination_by (ts.length, goals.length)
decreasing_by
  · exact Prod.Lex.left _ _ (by grind)
  · exact Prod.Lex.right _ (by grind)

/-- Whether tokens make up a source file. -/
def accepts (tokens : List Token) : Bool :=
  run [.innerAttributes, .item .file] .plain false tokens

/-! ## Runs -/

/-- Without goals left, no token may be left. -/
theorem run_nil (s : Shape) (afterBrace : Bool) (ts : List Token) :
    run [] s afterBrace ts = ts.isEmpty := by
  rw [run]

/-- What a goal leaves when it takes tokens comes before the goals after it. -/
theorem run_take {g : Goal} {s : Shape} {afterBrace : Bool} {t : Token} {rest : List Token}
    {extra : Nat} {next : List Goal} (later : List Goal)
    (h : g.step s afterBrace (t :: rest) = .take extra next) :
    run (g :: later) s afterBrace (t :: rest) =
      run (next ++ later) .plain (extra = 0 && t = .closing .brace) (rest.drop extra) := by
  rw [run, h]

/-- A goal that is left makes room for the next one. -/
theorem run_leave {g : Goal} {s s' : Shape} {afterBrace : Bool} {ts : List Token}
    (later : List Goal) (h : g.step s afterBrace ts = .leave s') :
    run (g :: later) s afterBrace ts = run later s' afterBrace ts := by
  rw [run, h]

end EnumNames.Target
