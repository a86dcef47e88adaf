import EnumNames.Code.Print
import EnumNames.Display.Code
import EnumNames.Guard
import EnumNames.Lookup.Code
import EnumNames.Options

/-!
# Code of one type

The items of a type in their order: the guard, the function that shows a value with its tables, and,
if it is wanted, the lookup function with its arrays.
-/

namespace EnumNames

/-- The lookup function of a type. -/
structure GeneratedLookup where
  functionName : String
  plan : LookupPlan
  deriving DecidableEq, Repr

/-- The code generated for one type. -/
structure GeneratedType where
  typeName : String
  /-- All declared constants; the guard asserts every one. -/
  constants : List Constant
  /-- The number of values that have a name. -/
  size : Nat
  display : DisplayPlan
  lookup : Option GeneratedLookup
  deriving DecidableEq, Repr

/-- Generates the code of a type. The options are taken as they are. -/
def Enumeration.generate (e : Enumeration) (o : Options) : Except InputError GeneratedType :=
  e.memberSet.map fun set =>
    { typeName := e.name
      constants := e.constants
      size := set.members.length
      display := .select set.members o.runThreshold
      lookup := (o.lookupName? e.name).map fun functionName =>
        ⟨functionName, .select set.members o.lookupThresholds⟩ }

namespace GeneratedType

/-- The items of the lookup function, if there is one. -/
def lookupItems (g : GeneratedType) : List Code.Item :=
  match g.lookup with
  | some lookup => lookup.plan.items g.typeName lookup.functionName
  | none => []

/-- All items of the type. -/
def items (g : GeneratedType) : List Code.Item :=
  Guard.item g.constants :: g.display.items g.typeName ++ g.lookupItems

/-- The text of the type. -/
def text (g : GeneratedType) : String :=
  Code.itemsText g.items

end GeneratedType

end EnumNames
