import EnumNames.Target.Scan

/-!
# Lexemes of emitted text

Tokens tell what the syntax check has to know. To read a text as code one also has to know what its
literals stand for, so a lexeme is a token with that content.

* `Lexeme.ofToken?` reads the content of a token off its spelling.
* `lexemes?` gives the lexemes of a text.
-/

namespace EnumNames.Code

open Target

/-- A token of emitted text with what it stands for. -/
inductive Lexeme
  | word (name : String)
  | keyword (k : Keyword)
  | lifetime (name : String)
  /-- An integer and the name of the type that is written at its end, if there is one. -/
  | number (n : Nat) (suffix : String)
  | text (s : String)
  /-- A sign; `joined` if another sign follows at once. -/
  | sign (s : Sign) (joined : Bool)
  | opening (b : Bracket)
  | closing (b : Bracket)
  deriving DecidableEq, Repr

/-- Splits a decimal number into its digits and its suffix. -/
def decimal? (spelling : List Char) : Option Lexeme :=
  let digits := spelling.takeWhile Char.isDigit
  if digits.isEmpty then none
  else some (.number (digitsValue 10 digits) (String.ofList (spelling.dropWhile Char.isDigit)))

/-- What a literal stands for, if it is a text or an integer in base ten or sixteen. -/
def literal? : List Char → Option Lexeme
  | '"' :: cs => (Text.decode cs.dropLast).map fun s => .text (String.ofList s)
  | '0' :: 'x' :: digits =>
    if digits.all (isDigitOrGap 16) then some (.number (digitsValue 16 digits) "") else none
  | cs => decimal? cs

/-- The lexeme of a token that is spelled in this way. -/
def Lexeme.ofToken? (spelling : List Char) : Token → Option Lexeme
  | .word name => some (.word name)
  | .keyword k => some (.keyword k)
  | .lifetime => some (.lifetime (String.ofList (spelling.drop 1)))
  | .literal _ => literal? spelling
  | .sign s joined => some (.sign s joined)
  | .opening b => some (.opening b)
  | .closing b => some (.closing b)
  | .quote => none

/-- The lexemes of a text. Documentation comments have none, since they are attributes. -/
def lexemes? (cs : List Char) : Option (List Lexeme) :=
  if cs.isEmpty then some []
  else
    match _found : element? cs with
    | some ([], rest) => lexemes? rest
    | some ([t], rest) =>
      match Lexeme.ofToken? (cs.take (cs.length - rest.length)) t, lexemes? rest with
      | some l, some ls => some (l :: ls)
      | _, _ => none
    | _ => none
termination_by cs.length
decreasing_by all_goals exact element?_length (by assumption)

/-! ## Steps -/

theorem lexemes?_nil : lexemes? [] = some [] := by
  rw [lexemes?]
  rfl

/-- Blanks and comments leave no lexeme. -/
theorem lexemes?_gap {cs rest : List Char} (h : element? cs = some ([], rest)) :
    lexemes? cs = lexemes? rest := by
  have hlength := element?_length h
  have hne : cs.isEmpty = false := by
    rw [List.isEmpty_eq_false_iff]
    intro hnil
    rw [hnil] at hlength
    exact absurd hlength (by simp)
  rw [lexemes?, if_neg (by simp [hne]), h]

/-- A token in front of a text is its first lexeme. -/
theorem lexemes?_token {cs spelling rest : List Char} {t : Token} {l : Lexeme}
    (h : element? cs = some ([t], rest)) (hcs : cs = spelling ++ rest)
    (hl : Lexeme.ofToken? spelling t = some l) :
    lexemes? cs = (lexemes? rest).map (l :: ·) := by
  have hlength := element?_length h
  have hne : cs.isEmpty = false := by
    rw [List.isEmpty_eq_false_iff]
    intro hnil
    rw [hnil] at hlength
    exact absurd hlength (by simp)
  have htake : cs.take (cs.length - rest.length) = spelling := by
    rw [hcs, List.length_append, Nat.add_sub_cancel, List.take_left]
  rw [lexemes?, if_neg (by simp [hne]), h]
  simp only [htake, hl]
  cases lexemes? rest with
  | none => rfl
  | some ls => rfl

end EnumNames.Code
