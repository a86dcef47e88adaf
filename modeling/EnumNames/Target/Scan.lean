import EnumNames.Target.Comment
import EnumNames.Target.NumberLiteral
import EnumNames.Target.QuotedLiteral
import EnumNames.Text.Blank

/-!
# Scanning source text

Source text is cut into lexical elements: blanks and comments, which leave no token, documentation
comments, which leave the tokens of an attribute, and tokens proper.

* `scan?` gives the tokens of a text, or `none` if some part of it is no token.
-/

namespace EnumNames.Target

open Text

/-! ## Tokens -/

/-- Whether a comment begins here. -/
def beginsComment : List Char → Bool
  | '/' :: '/' :: _ | '/' :: '*' :: _ => true
  | _ => false

/-- Whether a sign begins here, or a single quote. -/
def beginsSign (cs : List Char) : Bool :=
  !beginsComment cs && cs.head?.any fun c => c == '\'' || (signs.lookup c).isSome

/-- The sign or bracket that a text begins with, and what follows it. -/
def sign? : List Char → Option (Token × List Char)
  | [] => none
  | '(' :: cs => some (.opening .paren, cs)
  | ')' :: cs => some (.closing .paren, cs)
  | '[' :: cs => some (.opening .square, cs)
  | ']' :: cs => some (.closing .square, cs)
  | '\x7b' :: cs => some (.opening .brace, cs)
  | '\x7d' :: cs => some (.closing .brace, cs)
  | c :: cs =>
    if beginsComment (c :: cs) then none
    else (signs.lookup c).map fun s => (.sign s (beginsSign cs), cs)

/-- What follows a literal. -/
def afterLiteral? : List Char → Option (List Char)
  | '"' :: cs => (afterQuoted? .text .plain cs).map afterSuffix
  | 'r' :: cs => (afterRawMark? .text cs).map afterSuffix
  | 'b' :: '"' :: cs => (afterQuoted? .bytes .plain cs).map afterSuffix
  | 'b' :: 'r' :: cs => (afterRawMark? .bytes cs).map afterSuffix
  | 'c' :: '"' :: cs => (afterQuoted? .cText .plain cs).map afterSuffix
  | 'c' :: 'r' :: cs => (afterRawMark? .cText cs).map afterSuffix
  | 'b' :: '\'' :: cs => afterChar? .bytes cs
  | '\'' :: cs => afterChar? .text cs
  | cs => afterNumber? cs

/-- The kind of the literal that a text begins with. -/
def literalKind (cs : List Char) : LiteralKind :=
  match cs with
  | '"' :: _ | 'r' :: _ => .text
  | c :: _ => if c.isDigit then numberKind cs else .other
  | [] => .other

/-- What follows the place of a literal that is missing. -/
def afterMissing? (cs : List Char) : Option (List Char) :=
  let mark := "(/*ERROR*/)".toList
  if mark.isPrefixOf cs then some (cs.drop mark.length) else none

/-- Whether a text begins like a literal with letters before its quote. -/
def opensLiteral (cs : List Char) : Bool :=
  ["r\"", "r#\"", "r##", "b\"", "b'", "br\"", "br#", "c\"", "cr\"", "cr#"].any
    fun mark => mark.toList.isPrefixOf cs

/-- The token that begins with a single quote: an identifier follows it, and neither another quote
nor a number sign follows that. It is a lifetime unless the identifier begins a literal. -/
def quote? : List Char → Option (Token × List Char)
  | '\'' :: cs =>
    match word? cs with
    | some (_, rest) =>
      if rest.head? = some '\'' ∨ rest.head? = some '#' ∧ !"r#".toList.isPrefixOf cs then none
      else if (afterLiteral? cs).isSome ∨ opensLiteral cs then some (.quote, cs)
      else some (.lifetime, rest)
    | none => none
  | _ => none

/-- The token that a text begins with, and what follows it. -/
def token? (cs : List Char) : Option (Token × List Char) :=
  match afterLiteral? cs with
  | some rest => some (.literal (literalKind cs), rest)
  | none =>
    match afterMissing? cs with
    | some rest => some (.literal .other, rest)
    | none =>
      match quote? cs with
      | some found => some found
      | none =>
        match sign? cs with
        | some found => some found
        | none => if opensLiteral cs then none else word? cs

/-! ## Lexical elements -/

/-- Whether a character separates tokens. -/
def isSeparator (c : Char) : Bool :=
  isBlank c || c.toNat == 0x200e || c.toNat == 0x200f

/-- The lexical element that a text begins with: its tokens, and what follows it. -/
def element? : List Char → Option (List Token × List Char)
  | '/' :: '/' :: '/' :: '/' :: cs => some ([], (restOfLine cs).2)
  | '/' :: '/' :: '/' :: cs => docLine? false cs
  | '/' :: '/' :: '!' :: cs => docLine? true cs
  | '/' :: '/' :: cs => some ([], (restOfLine cs).2)
  | '/' :: '*' :: '*' :: '/' :: cs => some ([], cs)
  | '/' :: '*' :: '*' :: '*' :: cs => (afterComment? 1 ('*' :: '*' :: cs)).map ([], ·)
  | '/' :: '*' :: '*' :: cs => docBlock? false cs
  | '/' :: '*' :: '!' :: cs => docBlock? true cs
  | '/' :: '*' :: cs => (afterComment? 1 cs).map ([], ·)
  | [] => none
  | c :: cs =>
    if isSeparator c then some ([], cs)
    else match token? (c :: cs) with
      | some (t, rest) => some ([t], rest)
      | none => none

/-! ## Nothing is given back -/

theorem sign?_length {cs rest : List Char} {t : Token} (h : sign? cs = some (t, rest)) :
    rest.length < cs.length := by
  unfold sign? at h
  split at h <;> grind [Option.map_eq_some_iff]

theorem map_afterSuffix_length {r : Option (List Char)} {cs rest : List Char}
    (hr : ∀ s, r = some s → s.length ≤ cs.length) (h : r.map afterSuffix = some rest) :
    rest.length ≤ cs.length := by
  obtain ⟨s, hs, rfl⟩ := Option.map_eq_some_iff.1 h
  exact Nat.le_trans (afterSuffix_length s) (hr s hs)

theorem afterLiteral?_length {cs rest : List Char} (h : afterLiteral? cs = some rest) :
    rest.length < cs.length := by
  unfold afterLiteral? at h
  split at h
  case h_7 => have := afterChar?_length h; simp only [List.length_cons]; omega
  case h_8 => have := afterChar?_length h; simp only [List.length_cons]; omega
  case h_9 => exact afterNumber?_length h
  all_goals
    have := map_afterSuffix_length
      (fun s hs => Nat.le_of_lt
        (by first | exact afterQuoted?_length hs | exact afterRawMark?_length hs)) h
    simp only [List.length_cons]
    omega

theorem afterMissing?_length {cs rest : List Char} (h : afterMissing? cs = some rest) :
    rest.length < cs.length := by
  simp only [afterMissing?, Option.ite_none_right_eq_some, Option.some.injEq] at h
  obtain ⟨hp, rfl⟩ := h
  have := (List.isPrefixOf_iff_prefix.1 hp).length_le
  rw [List.length_drop]
  have : 0 < "(/*ERROR*/)".toList.length := by decide
  omega

theorem quote?_length {cs rest : List Char} {t : Token} (h : quote? cs = some (t, rest)) :
    rest.length < cs.length := by
  unfold quote? at h
  grind [→ word?_length]

theorem token?_length {cs rest : List Char} {t : Token} (h : token? cs = some (t, rest)) :
    rest.length < cs.length := by
  unfold token? at h
  grind [→ afterLiteral?_length, → afterMissing?_length, → quote?_length, → sign?_length,
    → word?_length]

theorem element?_length {cs rest : List Char} {ts : List Token}
    (h : element? cs = some (ts, rest)) : rest.length < cs.length := by
  unfold element? at h
  split at h
  all_goals
    try rw [Option.map_eq_some_iff] at h
    grind [restOfLine_length, → docLine?_length, → docBlock?_length, → afterComment?_length,
      → token?_length]

/-! ## Whole texts -/

/-- Scans a text to its end, after the tokens `before`, the last one first. -/
def scanFrom (before : List Token) (cs : List Char) : Option (List Token) :=
  if cs.isEmpty then some before.reverse
  else
    match _found : element? cs with
    | some (ts, rest) => scanFrom (ts.reverse ++ before) rest
    | none => none
termination_by cs.length
decreasing_by exact element?_length (by assumption)

/-- Scanning goes on after an element. -/
theorem scanFrom_element {cs rest : List Char} {ts : List Token}
    (h : element? cs = some (ts, rest)) (before : List Token) :
    scanFrom before cs = scanFrom (ts.reverse ++ before) rest := by
  have hne : cs.isEmpty = false := by
    cases cs with
    | nil => exact absurd (element?_length h) (by simp)
    | cons c cs => rfl
  rw [scanFrom, if_neg (by simp [hne]), h]

/-- Drops the byte order mark that a text may begin with. -/
def dropOrderMark (cs : List Char) : List Char :=
  match cs with
  | c :: rest => if c.toNat = 0xfeff then rest else cs
  | [] => []

/-- The tokens of a text. -/
def scan? (text : String) : Option (List Token) :=
  scanFrom [] (dropOrderMark text.toList)

/-- Whether a text is one identifier; blanks and comments around it do not count. -/
def isIdentifier (text : String) : Bool :=
  match scan? text with
  | some [.word _] => true
  | _ => false

end EnumNames.Target
