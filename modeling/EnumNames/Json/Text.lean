import EnumNames.Json.Reader

/-!
# Texts of a document

A text stands between quotes; a backslash begins an escape, and no control character may stand in it
as it is. Escapes of the form `\uXXXX` give units of UTF-16, of which two may form a pair. The bytes
of a text have to be UTF-8, which is judged at its end.

* `readText` reads a text after its opening quote.
* `skipText` passes a text that nobody asks for; it judges neither pairs nor UTF-8.
-/

namespace EnumNames.Json

/-- The value of a hexadecimal digit. -/
def hexDigit? (b : UInt8) : Option Nat :=
  if 0x30 ≤ b ∧ b ≤ 0x39 then some (b.toNat - 0x30)
  else if 0x41 ≤ b ∧ b ≤ 0x46 then some (b.toNat - 0x41 + 10)
  else if 0x61 ≤ b ∧ b ≤ 0x66 then some (b.toNat - 0x61 + 10)
  else none

/-- Reads four hexadecimal digits. -/
def readUnit : Reader Nat
  | a :: b :: c :: d :: rest =>
    match hexDigit? a, hexDigit? b, hexDigit? c, hexDigit? d with
    | some h, some i, some j, some k =>
      let unit := ((h * 16 + i) * 16 + j) * 16 + k
      .ok ((((Taken.ofFirst unit d rest).cons c).cons b).cons a)
    | _, _, _, _ => breach .badEscape
  | _ => ended .text

/-- Reads the second half of a surrogate pair, with its backslash, after the first half `high`. -/
def readLowSurrogate (high : Nat) : Reader Nat
  | [] => ended .text
  | [b] => if Char.ofUInt8 b = '\\' then ended .text else breach .halfSurrogatePair
  | b :: u :: rest =>
    if Char.ofUInt8 b = '\\' ∧ Char.ofUInt8 u = 'u' then do
      let low ← readUnit rest
      if 0xdc00 ≤ low.value ∧ low.value ≤ 0xdfff then
        let codePoint := 0x10000 + (high - 0xd800) * 0x400 + (low.value - 0xdc00)
        return ((low.map fun _ => codePoint).cons u).cons b
      else breach .loneSurrogate
    else breach .halfSurrogatePair

/-- Reads the digits of an escaped code point, and the second escape of a pair. -/
def readCodePoint : Reader Nat := fun s => do
  let unit ← readUnit s
  if 0xdc00 ≤ unit.value ∧ unit.value ≤ 0xdfff then breach .loneSurrogate
  else if 0xd800 ≤ unit.value ∧ unit.value ≤ 0xdbff then
    return unit.andThen (← readLowSurrogate unit.value unit.rest)
  else return unit

/-- The bytes of the character with a code point. -/
def utf8 (codePoint : Nat) : List UInt8 :=
  (String.singleton (Char.ofNat codePoint)).toUTF8.toList

/-- The character of an escape of one letter. -/
def shortEscape? : Char → Option Char
  | '"' => some '"'
  | '\\' => some '\\'
  | '/' => some '/'
  | 'b' => some '\x08'
  | 'f' => some '\x0c'
  | 'n' => some '\n'
  | 'r' => some '\r'
  | 't' => some '\t'
  | _ => none

/-- Reads what follows a backslash; the value is the bytes that the escape stands for. -/
def readEscape : Reader (List UInt8)
  | [] => ended .text
  | b :: rest =>
    match shortEscape? (Char.ofUInt8 b) with
    | some c => .ok (.ofFirst (utf8 c.toNat) b rest)
    | none =>
      if Char.ofUInt8 b = 'u' then do
        return ((← readCodePoint rest).map utf8).cons b
      else breach .badEscape

/-- Reads the bytes of a text up to its closing quote, after the bytes `before`, the last one
first. -/
def readBytes (before : List UInt8) : Reader (List UInt8)
  | [] => ended .text
  | b :: rest =>
    if Char.ofUInt8 b = '"' then .ok (.ofFirst before.reverse b rest)
    else if Char.ofUInt8 b = '\\' then
      match readEscape rest with
      | .error e => .error e
      | .ok escape =>
        match readBytes (escape.value.reverse ++ before) escape.rest with
        | .error e => .error e
        | .ok t => .ok ((escape.andThen t).cons b)
    else if b < 0x20 then breach .controlCharacter
    else
      match readBytes (b :: before) rest with
      | .error e => .error e
      | .ok t => .ok (t.cons b)
termination_by s => s.length
decreasing_by
  · have := escape.shorter; simp; omega
  · simp

/-- The text of some bytes, if they are UTF-8. -/
def ofUtf8? (bytes : List UInt8) : Option String :=
  String.fromUTF8? ⟨bytes.toArray⟩

/-- Reads a text after its opening quote. -/
def readText : Reader String := fun s => do
  let bytes ← readBytes [] s
  match ofUtf8? bytes.value with
  | some text => return bytes.map fun _ => text
  | none => breach .badEncoding

/-- Passes what follows a backslash. -/
def skipEscape : Reader Unit
  | [] => ended .text
  | b :: rest =>
    match shortEscape? (Char.ofUInt8 b) with
    | some _ => .ok (.ofFirst () b rest)
    | none =>
      if Char.ofUInt8 b = 'u' then do
        return ((← readUnit rest).map fun _ => ()).cons b
      else breach .badEscape

/-- Passes a text after its opening quote. -/
def skipText : Reader Unit
  | [] => ended .text
  | b :: rest =>
    if Char.ofUInt8 b = '"' then .ok (.ofFirst () b rest)
    else if Char.ofUInt8 b = '\\' then
      match skipEscape rest with
      | .error e => .error e
      | .ok escape =>
        match skipText escape.rest with
        | .error e => .error e
        | .ok t => .ok ((escape.andThen t).cons b)
    else if b < 0x20 then breach .controlCharacter
    else
      match skipText rest with
      | .error e => .error e
      | .ok t => .ok (t.cons b)
termination_by s => s.length
decreasing_by
  · have := escape.shorter; simp; omega
  · simp

end EnumNames.Json
