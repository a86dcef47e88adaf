import EnumNames.Text.Unprintable

/-!
# Quoted text

A text between double quotes, in the notation that messages and emitted code share. A quote, a
backslash and the four usual control characters have escapes of two characters; a character that is
not printable or extends the one before it is written as `\u` with its code point in hexadecimal.

* `encode` and `quoted` write a text.
* `decode` reads the part between the quotes back, and refuses what is no complete escape.
-/

namespace EnumNames.Text

/-- Lower-case hexadecimal digits, without leading zeros. -/
def hexDigits (n : Nat) : List Char :=
  Nat.toDigits 16 n

/-- How one character is written between quotes. -/
def encodeChar (c : Char) : List Char :=
  if c = '"' then ['\\', '"']
  else if c = '\\' then ['\\', '\\']
  else if c = '\n' then ['\\', 'n']
  else if c = '\r' then ['\\', 'r']
  else if c = '\t' then ['\\', 't']
  else if c.toNat = 0 then ['\\', '0']
  else if isPrintable c && !isExtending c then [c]
  else ['\\', 'u', '\x7b'] ++ hexDigits c.toNat ++ ['\x7d']

/-- How a text is written between quotes. -/
def encode (cs : List Char) : List Char :=
  cs.flatMap encodeChar

/-- A text in double quotes. -/
def quoted (s : String) : String :=
  String.ofList ('"' :: encode s.toList ++ ['"'])

/-- The value of a hexadecimal digit of either case. -/
def hexValue? (c : Char) : Option Nat :=
  if '0' ≤ c ∧ c ≤ '9' then some (c.toNat - 0x30)
  else if 'a' ≤ c ∧ c ≤ 'f' then some (c.toNat - 0x57)
  else if 'A' ≤ c ∧ c ≤ 'F' then some (c.toNat - 0x37)
  else none

/-- The character with code point `n`, if there is one. -/
def char? (n : Nat) : Option Char :=
  if h : n.isValidChar then some (Char.ofNatAux n h) else none

/-- Where a reader of escapes stands: in plain text, after a backslash, after `\u`, or among the
digits of a code point, of which `value` is read so far. -/
inductive EscapeState
  | plain
  | backslash
  | codeOpen
  | code (value : Nat)
  deriving DecidableEq, Repr

/-- One step of reading: the next state and the character completed by this one, if any. -/
def EscapeState.next? (state : EscapeState) (c : Char) : Option (EscapeState × Option Char) :=
  match state with
  | .plain =>
    if c = '"' then none
    else if c = '\\' then some (.backslash, none)
    else some (.plain, some c)
  | .backslash =>
    if c = 'n' then some (.plain, some '\n')
    else if c = 'r' then some (.plain, some '\r')
    else if c = 't' then some (.plain, some '\t')
    else if c = '0' then some (.plain, some (Char.ofNat 0))
    else if c = '\\' ∨ c = '"' ∨ c = '\'' then some (.plain, some c)
    else if c = 'u' then some (.codeOpen, none)
    else none
  | .codeOpen => if c = '\x7b' then some (.code 0, none) else none
  | .code value =>
    if c = '\x7d' then (char? value).map fun c => (.plain, some c)
    else (hexValue? c).map fun d => (.code (value * 16 + d), none)

/-- Reads escapes from a state; a text that ends inside an escape is refused. -/
def decodeFrom : EscapeState → List Char → Option (List Char)
  | .plain, [] => some []
  | _, [] => none
  | state, c :: cs =>
    match state.next? c with
    | none => none
    | some (state', read) => (decodeFrom state' cs).map fun out => read.toList ++ out

/-- The text denoted by what stands between the quotes. -/
def decode (cs : List Char) : Option (List Char) :=
  decodeFrom .plain cs

end EnumNames.Text
