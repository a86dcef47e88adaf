import EnumNames.Code.Eval
import EnumNames.Code.Read

/-!
# Reading a guard

A guard compares constants with expressions of the user. They may be any expressions, so their
tokens are kept with their spellings, and what they mean is left to the surroundings. Only decimal
literals are read as numbers; anything else has to stand in parentheses.

* `spelled?` gives the tokens of a text with their spellings.
* `readGuard?` reads the text of a guard as the comparisons that it makes.
* `Comparison.holds` tells whether the compiler lets a comparison pass.
-/

namespace EnumNames.Code

open Target

/-! ## Tokens with their spellings -/

/-- A token with its spelling. -/
structure Spelled where
  token : Token
  spelling : List Char
  deriving DecidableEq, Repr

/-- The tokens of a text with their spellings. Documentation comments have none, since they are
attributes. -/
def spelled? (cs : List Char) : Option (List Spelled) :=
  if cs.isEmpty then some []
  else
    match _found : element? cs with
    | some ([], rest) => spelled? rest
    | some ([t], rest) => (spelled? rest).map (⟨t, cs.take (cs.length - rest.length)⟩ :: ·)
    | _ => none
termination_by cs.length
decreasing_by all_goals exact element?_length (by assumption)

/-- Whether no comment begins where an element of a text begins. -/
def isCommentFree (cs : List Char) : Bool :=
  !beginsComment cs &&
    match _found : element? cs with
    | some (_, rest) => isCommentFree rest
    | none => true
termination_by cs.length
decreasing_by exact element?_length (by assumption)

/-- The brackets that are open after a token, the innermost one first. -/
def bracketsAfter? (brackets : List Bracket) : Token → Option (List Bracket)
  | .opening b => some (b :: brackets)
  | .closing b =>
    match brackets with
    | [] => none
    | b' :: brackets => if b = b' then some brackets else none
  | _ => some brackets

/-- Whether tokens close the brackets that are open before them and all that they open. -/
def closesAll : List Bracket → List Spelled → Bool
  | brackets, [] => brackets.isEmpty
  | brackets, s :: ss => (bracketsAfter? brackets s.token).any (closesAll · ss)

/-- The tokens up to the parenthesis that closes the one before them, and what follows it. -/
def splitGroup? (brackets : List Bracket) : List Spelled → Option (List Spelled × List Spelled)
  | [] => none
  | s :: ss =>
    if brackets = [] ∧ s.token = .closing .paren then some ([], ss)
    else do
      let (inside, rest) ← splitGroup? (← bracketsAfter? brackets s.token) ss
      return (s :: inside, rest)

/-! ## Reading -/

/-- The lexeme that a token is, if it is one. -/
def Spelled.lexeme? (s : Spelled) : Option Lexeme :=
  Lexeme.ofToken? s.spelling s.token

/-- Passes tokens that have to be these lexemes. -/
def passLexemes? : List Lexeme → List Spelled → Option (List Spelled)
  | [], ss => some ss
  | l :: ls, s :: ss => if s.lexeme? = some l then passLexemes? ls ss else none
  | _ :: _, [] => none

/-- The lexemes that tokens begin with, as far as all of them are lexemes. -/
def leadingLexemes : List Spelled → List Lexeme
  | [] => []
  | s :: ss =>
    match s.lexeme? with
    | some l => l :: leadingLexemes ss
    | none => []

/-- Reads a path. -/
def readReference? (ss : List Spelled) : Option (String × List Spelled) := do
  let (reference, rest) ← readPath? (leadingLexemes ss)
  return (reference, ss.drop ((leadingLexemes ss).length - rest.length))

/-- The value of a decimal literal without a sign: a digit, then digits and underscores. -/
def plainDecimal? (cs : List Char) : Option Nat :=
  if cs.head?.any Char.isDigit && cs.all (fun c => c.isDigit || c == '_') then
    some (digitsValue 10 cs)
  else none

/-- What a constant is compared with. -/
inductive Operand
  /-- A decimal literal, perhaps with a minus sign. -/
  | literal (isNegative : Bool) (n : Nat)
  /-- An expression in parentheses, by its tokens. -/
  | group (tokens : List Spelled)
  deriving DecidableEq, Repr

/-- One comparison of a guard. -/
structure Comparison where
  reference : String
  operand : Operand
  deriving DecidableEq, Repr

/-- Reads a decimal literal, perhaps with a minus sign, or an expression in parentheses. -/
def readOperand? : List Spelled → Option (Operand × List Spelled)
  | ⟨.opening .paren, _⟩ :: ss => do
    let (inside, rest) ← splitGroup? [] ss
    return (.group inside, rest)
  | ⟨.sign .minus _, _⟩ :: ⟨.literal _, spelling⟩ :: ss =>
    (plainDecimal? spelling).map fun n => (.literal true n, ss)
  | ⟨.literal _, spelling⟩ :: ss => (plainDecimal? spelling).map fun n => (.literal false n, ss)
  | _ => none

/-- Reads an assertion that a constant is equal to something. -/
def readComparison? (ss : List Spelled) : Option (Comparison × List Spelled) := do
  let rest ← passLexemes? assertHead ss
  let (reference, rest) ← readReference? rest
  let rest ← passLexemes? assertField rest
  let (operand, rest) ← readOperand? rest
  let rest ← passLexemes? assertEnd rest
  return (⟨reference, operand⟩, rest)

/-- Reads assertions up to a closing brace, which is passed. -/
def readComparisons? (ss : List Spelled) : Option (List Comparison × List Spelled) :=
  match passLexemes? [.closing .brace] ss with
  | some rest => some ([], rest)
  | none => do
    let (a, rest) ← readComparison? ss
    if _shorter : rest.length < ss.length then
      let (as, rest) ← readComparisons? rest
      return (a :: as, rest)
    else none
termination_by ss.length

/-- The comparisons of a text that is one guard. -/
def readGuard? (text : String) : Option (List Comparison) := do
  let rest ← passLexemes? guardHead (← spelled? text.toList)
  let (comparisons, rest) ← readComparisons? rest
  let rest ← passLexemes? [.sign .semi false] rest
  if rest.isEmpty then return comparisons else none

/-! ## What a comparison does -/

section Meaning

variable (kind : Kind) (meaning : List Spelled → Option Int) (current : String → Int)

/-- The value of an operand that is subtracted from a number of a kind. There is no minus sign for
kinds without negative numbers; `meaning` gives the numbers that expressions stand for. -/
def Operand.value? : Operand → Option Val
  | literal true n => if kind.isSigned then some (.literal (-n)) else none
  | literal false n => some (.literal n)
  | group tokens => (meaning tokens).map (.number (.ofKind kind))

/-- Whether the compiler lets a comparison pass: the difference is a number of the kind, and it is
zero. -/
def Comparison.holds (a : Comparison) : Bool :=
  let difference := BinOp.sub.run? (some (.number (.ofKind kind) (current a.reference)))
    (a.operand.value? kind meaning)
  BinOp.equal.run? difference (some (.literal 0)) = some (.truth true)

end Meaning

end EnumNames.Code
