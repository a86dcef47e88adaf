import EnumNames.Json.Error

/-!
# Readers

A reader takes a value off the front of a document, which is a list of bytes, and leaves a shorter
rest; that it is shorter is part of its type, so that lists of values need no bound on their length.

* `Taken` is a value with the rest of the document, `After` a rest alone; what is taken off a rest
  is also taken off the whole.
* `peek?` looks at the first character after blanks, `passWord` passes a fixed word.
-/

namespace EnumNames.Json

/-- A value taken off a document `s`, and the shorter rest. -/
structure Taken (α : Type) (s : List UInt8) where
  value : α
  rest : List UInt8
  shorter : rest.length < s.length

/-- Takes a value off the front of a document. -/
abbrev Reader (α : Type) :=
  (s : List UInt8) → Except Error (Taken α s)

/-- The error of a breach of the grammar. -/
def breach {α : Type} (b : Breach) : Except Error α :=
  .error (.malformed b)

/-- The error of a document that ends too early. -/
def ended {α : Type} (within : Unfinished) : Except Error α :=
  .error (.ended within)

/-- The rest of a document, of which something may have been passed. -/
structure After (s : List UInt8) where
  rest : List UInt8
  shorter : rest.length ≤ s.length

namespace Taken

variable {α β : Type} {s : List UInt8}

/-- Changes the value. -/
def map (f : α → β) (t : Taken α s) : Taken β s :=
  ⟨f t.value, t.rest, t.shorter⟩

/-- The rest alone. -/
def after (t : Taken α s) : After s :=
  ⟨t.rest, Nat.le_of_lt t.shorter⟩

/-- What is taken off the rest is taken off the whole. -/
def andThen (t : Taken α s) (u : Taken β t.rest) : Taken β s :=
  ⟨u.value, u.rest, Nat.lt_trans u.shorter t.shorter⟩

/-- A value, when something is passed after another one was taken. -/
def thenPass (t : Taken α s) (a : After t.rest) : Taken α s :=
  ⟨t.value, a.rest, Nat.lt_of_le_of_lt a.shorter t.shorter⟩

/-- A value and the first byte of the document that it stands for. -/
def ofFirst (value : α) (b : UInt8) (rest : List UInt8) : Taken α (b :: rest) :=
  ⟨value, rest, Nat.lt_succ_self _⟩

/-- A value taken after the first byte. -/
def cons (b : UInt8) (t : Taken α s) : Taken α (b :: s) :=
  ⟨t.value, t.rest, Nat.lt_succ_of_lt t.shorter⟩

end Taken

namespace After

variable {α : Type} {s : List UInt8}

/-- Nothing has been passed. -/
def nothing (s : List UInt8) : After s :=
  ⟨s, Nat.le_refl _⟩

/-- What is taken off the rest is taken off the whole. -/
def andThen (a : After s) (t : Taken α a.rest) : Taken α s :=
  ⟨t.value, t.rest, Nat.lt_of_lt_of_le t.shorter a.shorter⟩

/-- What is passed of the rest is passed of the whole. -/
def thenPass (a : After s) (b : After a.rest) : After s :=
  ⟨b.rest, Nat.le_trans b.shorter a.shorter⟩

/-- Something has been passed after the first byte. -/
def cons (b : UInt8) (a : After s) : After (b :: s) :=
  ⟨a.rest, Nat.le_succ_of_le a.shorter⟩

end After

/-! ## Blanks -/

/-- Whether a byte is a blank between the parts of a document. -/
def isBlankByte (b : UInt8) : Bool :=
  b == 0x20 || b == 0x0a || b == 0x09 || b == 0x0d

/-- Drops blanks. -/
def skipBlanks (s : List UInt8) : List UInt8 :=
  s.dropWhile isBlankByte

theorem length_dropWhile_le {α : Type} (p : α → Bool) (s : List α) :
    (s.dropWhile p).length ≤ s.length :=
  (List.dropWhile_sublist p).length_le

theorem skipBlanks_length (s : List UInt8) : (skipBlanks s).length ≤ s.length :=
  length_dropWhile_le _ s

/-- The first character after blanks. A byte that is no ASCII character counts as the character of
the same number. -/
structure Peeked (s : List UInt8) where
  char : Char
  /-- The document from that character on. -/
  whole : After s
  /-- What follows the character. -/
  next : Taken Unit whole.rest

namespace Peeked

variable {α : Type} {s : List UInt8}

/-- What is left after the character. -/
def rest (p : Peeked s) : List UInt8 :=
  p.next.rest

theorem shorter (p : Peeked s) : p.rest.length < s.length :=
  Nat.lt_of_lt_of_le p.next.shorter p.whole.shorter

/-- The character has been passed. -/
def after (p : Peeked s) : After s :=
  (p.whole.andThen p.next).after

/-- A value that the character alone stands for. -/
def only (p : Peeked s) (value : α) : Taken α s :=
  p.whole.andThen (p.next.map fun _ => value)

/-- A value that is taken after the character. -/
def andThen (p : Peeked s) (t : Taken α p.rest) : Taken α s :=
  p.whole.andThen (p.next.andThen t)

/-- A value, when something is passed after the character. -/
def thenPass (p : Peeked s) (value : α) (a : After p.rest) : Taken α s :=
  p.whole.andThen ((p.next.map fun _ => value).thenPass a)

end Peeked

/-- Looks at the first character after blanks. -/
def peek? (s : List UInt8) : Option (Peeked s) :=
  match h : skipBlanks s with
  | [] => none
  | b :: rest => some ⟨Char.ofUInt8 b, ⟨b :: rest, h ▸ skipBlanks_length s⟩, .ofFirst () b rest⟩

/-! ## Words -/

/-- Passes the letters of a word. -/
def passWord : List Char → (s : List UInt8) → Except Error (After s)
  | [], s => .ok (.nothing s)
  | _ :: _, [] => ended .value
  | c :: cs, b :: s =>
    if Char.ofUInt8 b = c then (passWord cs s).map (.cons b) else breach .noWord

end EnumNames.Json
