import EnumNames.Json.Number

/-!
# Manifests

A manifest lists types with the constants that they declare, in order. Beside its name and number, a
constant may carry texts that overrule what is derived from these.
-/

namespace EnumNames

/-- A constant as a manifest declares it. -/
structure DeclaredConstant where
  name : String
  number : Json.Number
  /-- The expression that denotes the constant; by default the name inside the type. -/
  reference : Option String := none
  /-- The text shown for the constant, whatever the policy. -/
  display : Option String := none
  /-- The comment on the line of the declaration. -/
  comment : Option String := none
  /-- The literal for the guard; by default the number in decimal. -/
  canonical : Option String := none
  deriving DecidableEq, Repr

/-- A type as a manifest declares it. -/
structure DeclaredType where
  name : String
  kind : String
  constants : List DeclaredConstant
  deriving DecidableEq, Repr

/-- A manifest. -/
structure Manifest where
  schemaVersion : String
  types : List DeclaredType
  deriving DecidableEq, Repr

end EnumNames
