import EnumNames.Target.Word
import EnumNames.Text.Quoted

/-!
# Numbers of source text

A number is read with a point or an exponent if it has one, and else as an integer, which may have a
mark of its base. A suffix may follow, and the number has to end there.

* `afterNumber?` passes a number.
* `numberKind` tells whether a number may name a field of a tuple, or a field of such a field.
-/

namespace EnumNames.Target

open Text

/-- Whether no identifier goes on here. -/
def wordEnds : List Char → Bool
  | c :: _ => !isIdentContinue c
  | [] => true

/-- Drops the suffix of a number, which has to end there. -/
def afterNumberSuffix? (cs : List Char) : Option (List Char) :=
  let rest := afterSuffix cs
  if wordEnds rest then some rest else none

/-- What follows the digits of an integer in some base; a letter that is no digit ends them. -/
def afterDigits? (base : Nat) (isEmpty : Bool) : List Char → Option (List Char)
  | [] => if isEmpty then none else some []
  | c :: cs =>
    if c = '_' then if isEmpty ∧ base = 10 then none else afterDigits? base isEmpty cs
    else match hexValue? c with
      | some d =>
        if d < base then afterDigits? base false cs
        else if c.isDigit ∨ isEmpty then none
        else some (c :: cs)
      | none => if isEmpty then none else some (c :: cs)

/-- What follows the digits of an integer with or without a mark of its base. -/
def afterInteger? : List Char → Option (List Char)
  | '0' :: 'x' :: cs => afterDigits? 16 true cs
  | '0' :: 'o' :: cs => afterDigits? 8 true cs
  | '0' :: 'b' :: cs => afterDigits? 2 true cs
  | cs => afterDigits? 10 true cs

/-- What follows the exponent of a number, its letter being passed; it has to have a digit. -/
def afterExponent? (hasSign hasDigit : Bool) : List Char → Option (List Char)
  | [] => if hasDigit then some [] else none
  | c :: cs =>
    if c = '+' ∨ c = '-' then
      if hasDigit then some (c :: cs)
      else if hasSign then none
      else afterExponent? true hasDigit cs
    else if c.isDigit then afterExponent? hasSign true cs
    else if c = '_' then afterExponent? hasSign hasDigit cs
    else if hasDigit then some (c :: cs) else none

/-- What follows the digits of a number with a point or an exponent, its first digit being passed.
A point is no part of a number if another one or a word follows it. -/
def afterFraction? (hasDot : Bool) : List Char → Option (List Char)
  | [] => if hasDot then some [] else none
  | c :: cs =>
    if c.isDigit ∨ c = '_' then afterFraction? hasDot cs
    else if c = '.' ∧ !hasDot then
      if cs.head?.any fun d => d == '.' || isIdentStart d then none else afterFraction? true cs
    else if c = 'e' ∨ c = 'E' then
      match afterExponent? false false cs with
      | some rest => some rest
      | none => if hasDot then some (c :: cs) else none
    else if hasDot then some (c :: cs) else none

/-- What follows a number. -/
def afterNumber? : List Char → Option (List Char)
  | [] => none
  | c :: cs =>
    if c.isDigit then
      match (afterFraction? false cs).bind afterNumberSuffix? with
      | some rest => some rest
      | none => (afterInteger? (c :: cs)).bind afterNumberSuffix?
    else none

/-! ## Names of fields -/

/-- Whether a character may stand among the digits of a number in some base. -/
def isDigitOrGap (base : Nat) (c : Char) : Bool :=
  c == '_' || (hexValue? c).any (· < base)

/-- The value of digits in some base; gaps do not count. -/
def digitsValue (base : Nat) (cs : List Char) : Nat :=
  (cs.filterMap hexValue?).foldl (fun n d => n * base + d) 0

/-- Whether digits are small enough for the name of a field. -/
def isFieldNumber (base : Nat) (cs : List Char) : Bool :=
  digitsValue base cs < 0x100000000

/-- The kind of an integer in some base; without a suffix it may name a field. -/
def integerKind (base : Nat) (cs : List Char) : LiteralKind :=
  if wordEnds (cs.dropWhile (isDigitOrGap base))
    ∧ isFieldNumber base (cs.takeWhile (isDigitOrGap base)) then .index
  else .number

/-- The kind of a decimal number with the digits `whole` before its point and `cs` after it. -/
def fractionKind (whole cs : List Char) : LiteralKind :=
  let part := cs.takeWhile (isDigitOrGap 10)
  if wordEnds (cs.drop part.length) ∧ isFieldNumber 10 whole ∧ isFieldNumber 10 part then
    .indexPath part.isEmpty
  else .number

/-- The kind of the number that a text begins with. -/
def numberKind : List Char → LiteralKind
  | '0' :: 'x' :: cs => integerKind 16 cs
  | '0' :: 'o' :: cs => integerKind 8 cs
  | '0' :: 'b' :: cs => integerKind 2 cs
  | cs =>
    match cs.dropWhile (isDigitOrGap 10) with
    | '.' :: rest =>
      if rest.head?.any fun d => d == '.' || isIdentStart d then integerKind 10 cs
      else fractionKind (cs.takeWhile (isDigitOrGap 10)) rest
    | _ => integerKind 10 cs

/-! ## Nothing is given back -/

theorem afterDigits?_length {base : Nat} {isEmpty : Bool} {cs rest : List Char}
    (h : afterDigits? base isEmpty cs = some rest) :
    rest.length ≤ cs.length ∧ (isEmpty → rest.length < cs.length) := by
  fun_induction afterDigits? base isEmpty cs <;> grind

theorem afterInteger?_length {cs rest : List Char} (h : afterInteger? cs = some rest) :
    rest.length < cs.length := by
  unfold afterInteger? at h
  split at h <;> have := (afterDigits?_length h).2 rfl <;> grind

theorem afterExponent?_length {hasSign hasDigit : Bool} {cs rest : List Char}
    (h : afterExponent? hasSign hasDigit cs = some rest) : rest.length ≤ cs.length := by
  fun_induction afterExponent? hasSign hasDigit cs <;> grind

theorem afterFraction?_length {hasDot : Bool} {cs rest : List Char}
    (h : afterFraction? hasDot cs = some rest) : rest.length ≤ cs.length := by
  fun_induction afterFraction? hasDot cs <;> grind [→ afterExponent?_length]

theorem afterNumberSuffix?_length {cs rest : List Char} (h : afterNumberSuffix? cs = some rest) :
    rest.length ≤ cs.length := by
  have := afterSuffix_length cs
  unfold afterNumberSuffix? at h
  grind

theorem afterNumber?_length {cs rest : List Char} (h : afterNumber? cs = some rest) :
    rest.length < cs.length := by
  cases cs with
  | nil => simp [afterNumber?] at h
  | cons c cs =>
    simp only [afterNumber?] at h
    split at h
    · split at h
      · next heq =>
        simp only [Option.some.injEq] at h
        subst h
        obtain ⟨mid, hm, hr⟩ := Option.bind_eq_some_iff.1 heq
        have := afterFraction?_length hm
        have := afterNumberSuffix?_length hr
        simp only [List.length_cons]
        omega
      · obtain ⟨mid, hm, hr⟩ := Option.bind_eq_some_iff.1 h
        have := afterInteger?_length hm
        have := afterNumberSuffix?_length hr
        omega
    · simp at h

end EnumNames.Target
