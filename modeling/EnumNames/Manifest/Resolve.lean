import EnumNames.Constant
import EnumNames.Error
import EnumNames.Manifest.Basic

/-!
# From declared types to enumerations

A declared type becomes an enumeration if all its numbers are integers of its kind. Each constant is
given a name by a policy: its display text if it has one, else the comment of its line if comments
count, else its own name without a given beginning.

* `DeclaredType.enumeration` converts a type.
* `Manifest.resolve` converts the requested types, or all.
-/

namespace EnumNames

/-- How constants are named. -/
structure NamingPolicy where
  /-- The beginning that names lose. -/
  trimmed : String := ""
  /-- Whether the comment of a line names its constant. -/
  lineComment : Bool := false
  deriving DecidableEq, Repr

/-- A text without a given beginning, if it has that. -/
def dropStart (start text : String) : String :=
  if start.toList.isPrefixOf text.toList then String.ofList (text.toList.drop start.toList.length)
  else text

namespace DeclaredConstant

/-- The comment without blanks around it, if comments count and something is left. -/
def usableComment? (c : DeclaredConstant) (policy : NamingPolicy) : Option String :=
  if policy.lineComment then (c.comment.map Text.trim).filter (!·.isEmpty) else none

/-- The text shown for the constant. -/
def displayName (c : DeclaredConstant) (policy : NamingPolicy) : String :=
  (c.display <|> c.usableComment? policy).getD (dropStart policy.trimmed c.name)

/-- Whether the constant is a place without a name. -/
def isBlank (c : DeclaredConstant) : Bool :=
  c.name == "_"

/-- The value of the constant, if it is an integer of the kind; if no kind is known, any integer. -/
def integer? (c : DeclaredConstant) (kind : Option Kind) : Option Int :=
  match c.number with
  | .integer n => if kind.all (·.contains n) then some n else none
  | .float _ => none

/-- The error about a constant whose number is no integer of the kind. -/
def outOfRange (c : DeclaredConstant) (typeName : String) (kind : Option Kind) : InputError :=
  .valueOutOfRange typeName c.name c.number.text (kind.getD .i64)

/-- The constant with value `n`, which is signed if its kind is; with no kind known, if `n` is
negative. -/
def constant (c : DeclaredConstant) (typeName : String) (kind : Option Kind)
    (policy : NamingPolicy) (n : Int) : Constant :=
  let signed := match kind with
    | some kind => kind.isSigned
    | none => n < 0
  let made := Constant.ofInt signed (c.displayName policy)
    (c.reference.getD (typeName ++ "::" ++ c.name)) n
  { made with canonical := c.canonical.getD made.canonical }

/-- Converts the constant. -/
def resolve (c : DeclaredConstant) (typeName : String) (kind : Option Kind)
    (policy : NamingPolicy) : Except InputError Constant :=
  match c.integer? kind with
  | some n => .ok (c.constant typeName kind policy n)
  | none => .error (c.outOfRange typeName kind)

end DeclaredConstant

/-- Converts a type; constants without a name are left out. -/
def DeclaredType.enumeration (t : DeclaredType) (policy : NamingPolicy) :
    Except InputError Enumeration := do
  let kind := Kind.ofText? t.kind
  let constants ← (t.constants.filter (!·.isBlank)).mapM (·.resolve t.name kind policy)
  return ⟨t.name, t.kind, constants⟩

/-- Types that could be converted, and the errors about the others. -/
structure Resolved where
  types : List Enumeration
  errors : List InputError
  deriving DecidableEq, Repr

namespace Manifest

/-- The first type of a name. -/
def find? (m : Manifest) (name : String) : Option DeclaredType :=
  m.types.find? (·.name == name)

/-- The types that a request selects: those named, in its order, or all if it names none. -/
def selected (m : Manifest) (requested : List String) : List DeclaredType :=
  if requested.isEmpty then m.types else requested.filterMap m.find?

/-- The requested names that the manifest does not hold. -/
def missing (m : Manifest) (requested : List String) : List String :=
  requested.filter fun name => (m.find? name).isNone

/-- Converts the selected types. All missing names make one error, the last. -/
def resolve (m : Manifest) (requested : List String) (policy : NamingPolicy) : Resolved :=
  let results := (m.selected requested).map (·.enumeration policy)
  let missing := m.missing requested
  { types := results.filterMap fun
      | .ok e => some e
      | .error _ => none
    errors := results.filterMap (fun
      | .ok _ => none
      | .error e => some e) ++ if missing.isEmpty then [] else [.unknownTypes missing] }

end Manifest

end EnumNames
