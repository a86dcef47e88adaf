import EnumNames.Target.Token

/-!
# Comments

A comment ends with its line, or stands between marks that may be nested. A documentation comment
counts as an attribute, and a carriage return may stand in it only before a line feed.
-/

namespace EnumNames.Target

/-- What follows a block comment, its opening being passed; comments may be nested. -/
def afterComment? (depth : Nat) : List Char → Option (List Char)
  | '/' :: '*' :: cs => afterComment? (depth + 1) cs
  | '*' :: '/' :: cs => if depth ≤ 1 then some cs else afterComment? (depth - 1) cs
  | _ :: cs => afterComment? depth cs
  | [] => none

/-- The rest of a line: its text and what follows, which begins with the line feed. -/
def restOfLine (cs : List Char) : List Char × List Char :=
  (cs.takeWhile (· ≠ '\n'), cs.dropWhile (· ≠ '\n'))

/-- Whether every carriage return is followed by a line feed. -/
def returnsPaired : List Char → Bool
  | '\r' :: '\n' :: cs => returnsPaired cs
  | c :: cs => c ≠ '\r' && returnsPaired cs
  | [] => true

/-- The tokens of a documentation comment: an attribute, an inner one if `inner`. -/
def docTokens (inner : Bool) : List Token :=
  [.sign .pound false] ++ (if inner then [.sign .bang false] else [])
    ++ [.opening .square, .word "doc", .sign .eq false, .literal .text, .closing .square]

/-- The tokens of a documentation comment on one line, whose mark is passed. -/
def docLine? (inner : Bool) (cs : List Char) : Option (List Token × List Char) :=
  let (line, rest) := restOfLine cs
  if returnsPaired (line ++ rest.take 1) then some (docTokens inner, rest) else none

/-- The tokens of a documentation comment in a block, whose mark is passed. -/
def docBlock? (inner : Bool) (cs : List Char) : Option (List Token × List Char) :=
  match afterComment? 1 cs with
  | some rest =>
    if returnsPaired (cs.take (cs.length - rest.length - 2)) then some (docTokens inner, rest)
    else none
  | none => none

/-! ## Nothing is given back -/

theorem afterComment?_length {depth : Nat} {cs rest : List Char}
    (h : afterComment? depth cs = some rest) : rest.length < cs.length := by
  fun_induction afterComment? depth cs <;> grind

theorem restOfLine_length (cs : List Char) : (restOfLine cs).2.length ≤ cs.length :=
  (List.dropWhile_suffix _).length_le

theorem docLine?_length {inner : Bool} {cs rest : List Char} {ts : List Token}
    (h : docLine? inner cs = some (ts, rest)) : rest.length ≤ cs.length := by
  have := restOfLine_length cs
  unfold docLine? at h
  grind

theorem docBlock?_length {inner : Bool} {cs rest : List Char} {ts : List Token}
    (h : docBlock? inner cs = some (ts, rest)) : rest.length < cs.length := by
  unfold docBlock? at h
  grind [→ afterComment?_length]

end EnumNames.Target
