import EnumNames.Text.Quoted

/-!
# Written documents

A document is written from a tree, without blanks between its parts. In texts, only quotes,
backslashes and control characters are escaped; everything else stands as it is.
-/

namespace EnumNames.Json

/-- A document to be written. -/
inductive Tree
  | null
  | bool (b : Bool)
  /-- A number, in its final form. -/
  | number (s : String)
  | text (s : String)
  | list (elements : List Tree)
  | record (fields : List (String × Tree))
  deriving Repr

/-- The natural number `n`. -/
def Tree.natural (n : Nat) : Tree :=
  .number (toString n)

/-- A character inside a text. -/
def escapeChar (c : Char) : List Char :=
  match c with
  | '"' => ['\\', '"']
  | '\\' => ['\\', '\\']
  | '\x08' => ['\\', 'b']
  | '\x0c' => ['\\', 'f']
  | '\n' => ['\\', 'n']
  | '\r' => ['\\', 'r']
  | '\t' => ['\\', 't']
  | c =>
    if c.toNat < 0x20 then
      let digits := Nat.toDigits 16 c.toNat
      ['\\', 'u'] ++ List.replicate (4 - digits.length) '0' ++ digits
    else [c]

/-- A text between quotes. -/
def textLiteral (s : String) : List Char :=
  '"' :: s.toList.flatMap escapeChar ++ ['"']

namespace Tree

mutual

/-- The characters of a document. -/
def chars : Tree → List Char
  | null => "null".toList
  | bool b => (toString b).toList
  | number s => s.toList
  | text s => textLiteral s
  | list elements => '[' :: elementChars elements ++ [']']
  | record fields => '\x7b' :: fieldChars fields ++ ['\x7d']

/-- The elements of a list with commas between them. -/
def elementChars : List Tree → List Char
  | [] => []
  | [t] => t.chars
  | t :: rest => t.chars ++ ',' :: elementChars rest

/-- The fields of a record with commas between them. -/
def fieldChars : List (String × Tree) → List Char
  | [] => []
  | [(name, t)] => textLiteral name ++ ':' :: t.chars
  | (name, t) :: rest => textLiteral name ++ ':' :: t.chars ++ ',' :: fieldChars rest

end

/-- The text of a document. -/
def render (t : Tree) : String :=
  String.ofList t.chars

/-- A field that is left out if it has no value. -/
def optionalField (name : String) (value : Option Tree) : List (String × Tree) :=
  value.toList.map fun t => (name, t)

end Tree

end EnumNames.Json
