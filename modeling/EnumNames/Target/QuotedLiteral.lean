import EnumNames.Target.Word
import EnumNames.Text.Quoted

/-!
# Quoted literals

Texts, byte texts and texts that end in a zero byte stand between double quotes, with escapes or,
if they are raw, without; characters and bytes stand between single quotes.

* `afterQuoted?` passes a literal with escapes by a machine that reads one character at a time.
* `afterRawMark?` passes a raw literal, `afterChar?` a character or a byte.
-/

namespace EnumNames.Target

open Text

/-! ## Literals with escapes -/

/-- The kinds of quoted literals. -/
inductive QuotedKind
  | text
  | bytes
  | cText
  deriving DecidableEq, Repr

/-- Where a scanner of a quoted literal stands. -/
inductive QuotedState
  | plain
  /-- After a carriage return, which a line feed has to follow. -/
  | return
  /-- After a backslash. -/
  | escape
  /-- Before the first and the second digit of a byte. -/
  | firstDigit
  | secondDigit (first : Nat)
  /-- Before the brace and among the digits of a code point. -/
  | codeOpen
  | code (value digits : Nat)
  /-- Among the blanks after a line break that was escaped, and after a carriage return there. -/
  | blanks
  | blanksReturn
  deriving DecidableEq, Repr

/-- Whether a character may stand for itself in a literal. -/
def QuotedKind.allows (kind : QuotedKind) (c : Char) : Bool :=
  match kind with
  | .text => true
  | .bytes => c.toNat < 0x80
  | .cText => c.toNat ≠ 0

/-- Whether a code point may be written as an escape in a literal. -/
def QuotedKind.allowsCode (kind : QuotedKind) (n : Nat) : Bool :=
  match kind with
  | .text => n.isValidChar
  | .bytes => false
  | .cText => n.isValidChar && n ≠ 0

/-- The state after one more character between the quotes. -/
def QuotedState.next? (kind : QuotedKind) (state : QuotedState) (c : Char) : Option QuotedState :=
  match state with
  | .return => if c = '\n' then some .plain else none
  | .escape =>
    if c = 'x' then some .firstDigit
    else if c = 'u' ∧ kind ≠ .bytes then some .codeOpen
    else if c = 'n' ∨ c = 'r' ∨ c = 't' ∨ c = '\\' ∨ c = '\'' ∨ c = '"' then some .plain
    else if c = '0' then if kind = .cText then none else some .plain
    else if c = '\n' then some .blanks
    else if c = '\r' then some .blanksReturn
    else none
  | .firstDigit =>
    match hexValue? c with
    | some d => if kind = .text ∧ 8 ≤ d then none else some (.secondDigit d)
    | none => none
  | .secondDigit first =>
    match hexValue? c with
    | some d => if kind = .cText ∧ first * 16 + d = 0 then none else some .plain
    | none => none
  | .codeOpen => if c = '\x7b' then some (.code 0 0) else none
  | .code value digits =>
    if c = '_' ∧ 0 < digits then some state
    else if c = '\x7d' ∧ 0 < digits then if kind.allowsCode value then some .plain else none
    else match hexValue? c with
      | some d => if digits < 6 then some (.code (value * 16 + d) (digits + 1)) else none
      | none => none
  | .blanksReturn => if c = '\n' then some .blanks else none
  | .plain | .blanks =>
    if state = .blanks ∧ (c = ' ' ∨ c = '\t' ∨ c = '\n') then some .blanks
    else if state = .blanks ∧ c = '\r' then some .blanksReturn
    else if c = '\r' then some .return
    else if c = '\\' then some .escape
    else if kind.allows c then some .plain
    else none

/-- What follows the closing quote of a literal, its opening quote being passed. -/
def afterQuoted? (kind : QuotedKind) : QuotedState → List Char → Option (List Char)
  | _, [] => none
  | state, c :: cs =>
    if c = '"' ∧ (state = .plain ∨ state = .blanks) then some cs
    else match state.next? kind c with
      | some state' => afterQuoted? kind state' cs
      | none => none

theorem afterQuoted?_length {kind : QuotedKind} {state : QuotedState} {cs rest : List Char}
    (h : afterQuoted? kind state cs = some rest) : rest.length < cs.length := by
  fun_induction afterQuoted? kind state cs with
  | case1 => simp at h
  | case2 state c cs hc =>
    simp only [Option.some.injEq] at h
    subst h
    simp
  | case3 state c cs hc state' hs ih =>
    have := ih h
    simp only [List.length_cons]
    omega
  | case4 => simp at h

/-! ## Raw literals -/

/-- Splits off a run of number signs. -/
def hashes : List Char → Nat × List Char
  | '#' :: cs => ((hashes cs).1 + 1, (hashes cs).2)
  | cs => (0, cs)

/-- What follows a raw literal that ends in a quote and `n` number signs. -/
def afterRaw? (kind : QuotedKind) (n : Nat) : List Char → Option (List Char)
  | [] => none
  | '\r' :: '\n' :: cs => afterRaw? kind n cs
  | c :: cs =>
    if c = '"' ∧ (hashes cs).1 ≥ n then some (cs.drop n)
    else if c ≠ '\r' ∧ kind.allows c then afterRaw? kind n cs
    else none

/-- What follows a raw literal, the letters before its number signs being passed. -/
def afterRawMark? (kind : QuotedKind) (cs : List Char) : Option (List Char) :=
  match hashes cs with
  | (n, '"' :: rest) => if n ≤ 255 then afterRaw? kind n rest else none
  | _ => none

theorem hashes_length (cs : List Char) : (hashes cs).2.length ≤ cs.length := by
  fun_induction hashes cs with
  | case1 cs ih =>
    simp only [List.length_cons]
    omega
  | case2 => simp

theorem afterRaw?_length {kind : QuotedKind} {n : Nat} {cs rest : List Char}
    (h : afterRaw? kind n cs = some rest) : rest.length < cs.length := by
  fun_induction afterRaw? kind n cs with
  | case1 => simp at h
  | case2 cs ih =>
    have := ih h
    simp only [List.length_cons]
    omega
  | case3 c cs _ _ =>
    simp only [Option.some.injEq] at h
    subst h
    simp only [List.length_drop, List.length_cons]
    omega
  | case4 c cs _ _ _ ih =>
    have := ih h
    simp only [List.length_cons]
    omega
  | case5 => simp at h

theorem afterRawMark?_length {kind : QuotedKind} {cs rest : List Char}
    (h : afterRawMark? kind cs = some rest) : rest.length < cs.length := by
  have hl := hashes_length cs
  unfold afterRawMark? at h
  split at h
  · next n rest' heq =>
    rw [heq] at hl
    split at h
    · have := afterRaw?_length h
      simp only [List.length_cons] at hl
      omega
    · simp at h
  · simp at h

/-! ## Characters and bytes -/

/-- What follows the escape of a character or byte literal, its backslash being passed. -/
def afterCharEscape? (kind : QuotedKind) : List Char → Option (List Char)
  | 'x' :: a :: b :: cs =>
    match hexValue? a, hexValue? b with
    | some d, some _ => if kind = .text ∧ 8 ≤ d then none else some cs
    | _, _ => none
  | 'u' :: '\x7b' :: cs => if kind = .text then codePoint 0 0 cs else none
  | c :: cs => if c ∈ ['n', 'r', 't', '\\', '0', '\'', '"'] then some cs else none
  | [] => none
where
  /-- What follows the digits of a code point and their closing brace. -/
  codePoint (value digits : Nat) : List Char → Option (List Char)
    | [] => none
    | c :: cs =>
      if c = '_' ∧ 0 < digits then codePoint value digits cs
      else if c = '\x7d' ∧ 0 < digits then if value.isValidChar then some cs else none
      else match hexValue? c with
        | some d => if digits < 6 then codePoint (value * 16 + d) (digits + 1) cs else none
        | none => none

/-- What follows a character or byte literal, its opening quote being passed. -/
def afterChar? (kind : QuotedKind) (cs : List Char) : Option (List Char) :=
  let inside := match cs with
    | '\\' :: rest => afterCharEscape? kind rest
    | c :: rest => if kind = .bytes ∧ 0x80 ≤ c.toNat then none else some rest
    | [] => none
  match inside with
  | some ('\'' :: rest) => some (afterSuffix rest)
  | _ => none

theorem codePoint_length {value digits : Nat} {cs rest : List Char}
    (h : afterCharEscape?.codePoint value digits cs = some rest) : rest.length < cs.length := by
  fun_induction afterCharEscape?.codePoint value digits cs with
  | case1 => simp at h
  | case2 _ _ c cs _ ih =>
    have := ih h
    simp only [List.length_cons]
    omega
  | case3 _ _ c cs _ _ _ =>
    simp only [Option.some.injEq] at h
    subst h
    simp
  | case4 => simp at h
  | case5 _ _ c cs _ _ d _ _ ih =>
    have := ih h
    simp only [List.length_cons]
    omega
  | case6 => simp at h
  | case7 => simp at h

theorem afterCharEscape?_length {kind : QuotedKind} {cs rest : List Char}
    (h : afterCharEscape? kind cs = some rest) : rest.length < cs.length := by
  unfold afterCharEscape? at h
  split at h
  · split at h
    · split at h
      · simp at h
      · simp only [Option.some.injEq] at h
        subst h
        simp only [List.length_cons]
        omega
    · simp at h
  · split at h
    · have := codePoint_length h
      simp only [List.length_cons]
      omega
    · simp at h
  · split at h
    · simp only [Option.some.injEq] at h
      subst h
      simp
    · simp at h
  · simp at h

theorem afterChar?_length {kind : QuotedKind} {cs rest : List Char}
    (h : afterChar? kind cs = some rest) : rest.length < cs.length := by
  unfold afterChar? at h
  dsimp only at h
  split at h
  · next rest' heq =>
    simp only [Option.some.injEq] at h
    subst h
    have hs := afterSuffix_length rest'
    split at heq
    · have := afterCharEscape?_length heq
      simp only [List.length_cons] at this ⊢
      omega
    · split at heq
      · simp at heq
      · simp only [Option.some.injEq] at heq
        subst heq
        simp only [List.length_cons]
        omega
    · simp at heq
  · simp at h

end EnumNames.Target
