import EnumNames.Json.Number
import EnumNames.Text.Quoted

/-!
# Reading errors

A document can end too early, break the grammar, or hold something else than what is read for. The
causes are data; `Error.message` gives the wording.
-/

namespace EnumNames.Json

open Text (quoted)

/-- What a document ended in the middle of. -/
inductive Unfinished
  | value
  | text
  | list
  | record
  deriving DecidableEq, Repr

/-- A breach of the grammar. -/
inductive Breach
  | noValue
  | noWord
  | noColon
  | noListSeparator
  | noRecordSeparator
  | keyIsNoText
  | badEscape
  | badNumber
  | numberTooLarge
  | badEncoding
  | controlCharacter
  | loneSurrogate
  | halfSurrogatePair
  | trailingComma
  | trailingCharacters
  deriving DecidableEq, Repr

/-- A value as far as its type can be told at sight. -/
inductive Found
  | null
  | bool (b : Bool)
  | number (n : Number)
  | text (s : String)
  | list
  | record
  deriving DecidableEq, Repr

/-- What can go wrong when a document is read. -/
inductive Error
  | ended (within : Unfinished)
  | malformed (breach : Breach)
  /-- A value of another type than the one read for. -/
  | invalidType (found : Found) (expected : String)
  /-- A value of the right type that is out of range. -/
  | invalidValue (found : Found) (expected : String)
  /-- A list with too few elements. -/
  | invalidLength (length : Nat) (expected : String)
  | missingField (name : String)
  | duplicateField (name : String)
  /-- A word that is none of the choices. -/
  | unknownChoice (word : String) (choices : List String)
  deriving DecidableEq, Repr

/-- The three kinds of reading errors. -/
inductive Category
  /-- The document ended too early. -/
  | incomplete
  /-- The document breaks the grammar. -/
  | grammar
  /-- The document holds other data than what is read for. -/
  | data
  deriving DecidableEq, Repr

namespace Unfinished

/-- The words for what is unfinished. -/
def name : Unfinished → String
  | value => "a value"
  | text => "a string"
  | list => "a list"
  | record => "an object"

end Unfinished

namespace Breach

/-- The breach in words. -/
def message : Breach → String
  | noValue => "expected value"
  | noWord => "expected ident"
  | noColon => "expected `:`"
  | noListSeparator => "expected `,` or `]`"
  | noRecordSeparator => "expected `,` or `\x7d`"
  | keyIsNoText => "key must be a string"
  | badEscape => "invalid escape"
  | badNumber => "invalid number"
  | numberTooLarge => "number out of range"
  | badEncoding => "invalid unicode code point"
  | controlCharacter => "control character (\\u0000-\\u001F) found while parsing a string"
  | loneSurrogate => "lone leading surrogate in hex escape"
  | halfSurrogatePair => "unexpected end of hex escape"
  | trailingComma => "trailing comma"
  | trailingCharacters => "trailing characters"

end Breach

namespace Found

/-- A value in words. -/
def description : Found → String
  | null => "null"
  | bool b => "boolean `" ++ toString b ++ "`"
  | number (.integer n) => "integer `" ++ toString n ++ "`"
  | number (.float x) => "floating point `" ++ floatText x ++ "`"
  | text s => "string " ++ quoted s
  | list => "sequence"
  | record => "map"

end Found

namespace Error

/-- The kind of an error. -/
def category : Error → Category
  | ended _ => .incomplete
  | malformed _ => .grammar
  | invalidType _ _ | invalidValue _ _ | invalidLength _ _ | missingField _ | duplicateField _
  | unknownChoice _ _ => .data

/-- The choices in words. -/
def choicesText : List String → String
  | [] => "there are no variants"
  | [a] => "expected `" ++ a ++ "`"
  | [a, b] => "expected `" ++ a ++ "` or `" ++ b ++ "`"
  | choices => "expected one of " ++ String.intercalate ", " (choices.map fun c => "`" ++ c ++ "`")

/-- The error in words. -/
def message : Error → String
  | ended within => "EOF while parsing " ++ within.name
  | malformed breach => breach.message
  | invalidType found expected => "invalid type: " ++ found.description ++ ", expected " ++ expected
  | invalidValue found expected =>
    "invalid value: " ++ found.description ++ ", expected " ++ expected
  | invalidLength length expected =>
    "invalid length " ++ toString length ++ ", expected " ++ expected
  | missingField name => "missing field `" ++ name ++ "`"
  | duplicateField name => "duplicate field `" ++ name ++ "`"
  | unknownChoice word choices => "unknown variant `" ++ word ++ "`, " ++ choicesText choices

end Error

end EnumNames.Json
