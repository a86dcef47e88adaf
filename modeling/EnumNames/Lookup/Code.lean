import EnumNames.Code.Basic
import EnumNames.Lookup.Plan

/-!
# Code of lookup plans

The items emitted for a lookup plan: the function from a name to a constant, and before it the
arrays of a search by halving.
-/

namespace EnumNames.LookupPlan

open Code

/-- Leaves the function with the constant of an entry. -/
def found (e : LookupEntry) : Stmt :=
  .ret (.someOf (.path e.reference))

/-- Joins neighbours of equal hash into one arm. -/
def hashArms : List (UInt32 × LookupEntry) → List (UInt32 × List LookupEntry)
  | [] => []
  | (h, e) :: rest =>
    match hashArms rest with
    | (h', es) :: arms => if h = h' then (h, e :: es) :: arms else (h, [e]) :: (h', es) :: arms
    | [] => [(h, [e])]

/-- The block of one hash: a test for each name. -/
def hashBlock (entries : List LookupEntry) : List Stmt :=
  entries.map fun e => .when (.binary .equal (.var "name") (.literal e.name)) [found e]

/-- The function for hashed names: the hash is computed, then the block of that hash is run. -/
def hashedBody (entries : List (UInt32 × LookupEntry)) : List Stmt :=
  [.comment "fnv1a32 hash",
    .bindVar "h" .u32 (.int Digest.fnvOffset.toNat),
    .eachByte "b" "name"
      [.mix "h" (.cast (.var "b") .u32),
        .assign "h" (.wrappingMul "h" Digest.fnvPrime.toNat)],
    .blank,
    .switch "h" ((hashArms entries).map fun (h, es) => (h, hashBlock es)),
    .result .none]

/-- The function that searches by halving among the names of a table. -/
def searchBody (names index values : String) : List Stmt :=
  [.bindVars "lo" "hi" (.typedInt .usize 0) (.length values),
    .loop (.binary .less (.var "lo") (.var "hi"))
      [.bind "mid" (.binary .add (.var "lo")
          (.binary .div (.paren (.binary .sub (.var "hi") (.var "lo"))) (.int 2))),
        .bind "s" (.tableSlice names index "mid"),
        .order "name" "s" (.someOf (.element values (.var "mid"))) ("hi", .var "mid")
          ("lo", .binary .add (.var "mid") (.int 1))],
    .result .none]

/-- The items emitted for a plan. -/
def items (plan : LookupPlan) (typeName functionName : String) : List Item :=
  match plan with
  | hashedSwitch entries => [.blank, .lookup functionName typeName (hashedBody entries)]
  | binarySearch entries =>
    let names := itemName typeName "name" "_lookup"
    let index := itemName typeName "index" "_lookup"
    let values := itemName typeName "value" "_lookup"
    [.blank] ++ Item.ofTable names index (table entries)
      ++ [.constants values typeName (entries.map LookupEntry.reference), .blank,
        .lookup functionName typeName (searchBody names index values)]
  | directMap entries =>
    [.blank, .lookup functionName typeName
      [.mapLookup typeName (entries.map fun e => (e.name, e.reference)) "name"]]

end EnumNames.LookupPlan
