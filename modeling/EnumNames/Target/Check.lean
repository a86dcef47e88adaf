import EnumNames.Target.Grammar
import EnumNames.Target.Scan

/-!
# Syntax check

A text is a source file if it can be scanned and its tokens are accepted by the grammar. A byte
order mark and a first line that names an interpreter are not part of it.
-/

namespace EnumNames.Target

/-- Drops the blanks and comments that a text begins with. -/
def dropTokenless (cs : List Char) : List Char :=
  match _found : element? cs with
  | some ([], rest) => dropTokenless rest
  | _ => cs
termination_by cs.length
decreasing_by exact element?_length (by assumption)

/-- Drops a first line that names an interpreter; such a line does not begin an attribute. -/
def dropInterpreter (cs : List Char) : List Char :=
  match cs with
  | '#' :: '!' :: rest =>
    match dropTokenless rest with
    | '[' :: _ => cs
    | _ => cs.dropWhile (· ≠ '\n')
  | _ => cs

/-- Whether a text is a source file. -/
def isSourceFile (text : String) : Bool :=
  match scanFrom [] (dropOrderMark (dropInterpreter (dropOrderMark text.toList))) with
  | some tokens => accepts tokens
  | none => false

end EnumNames.Target
