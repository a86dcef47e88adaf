import EnumNames.Text.Blank

/-!
# File header

A generated file begins with a comment that names the command it was made by, and, if it is known,
a comment with the digest of the input.
-/

namespace EnumNames

/-- What the header of a file tells. -/
structure Header where
  /-- The arguments of the command. -/
  arguments : String := ""
  /-- The digest of the input in hexadecimal. -/
  digest : Option String := none
  deriving DecidableEq, Repr

namespace Header

/-- The command that the header names: the tool and its arguments without blanks around them. -/
def command (h : Header) : String :=
  let arguments := Text.trim h.arguments
  if arguments.isEmpty then "stringer" else "stringer " ++ arguments

/-- The text of the header. -/
def text (h : Header) : String :=
  "// Code generated by \"" ++ h.command ++ "\"; DO NOT EDIT.\n"
    ++ match h.digest with
      | some digest => "// Input sha256: " ++ digest ++ "\n"
      | none => ""

end Header

end EnumNames
