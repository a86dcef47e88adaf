import EnumNames.Code.Basic
import EnumNames.Display.Plan

/-!
# Code of display plans

The items emitted for a display plan: the tables of names, and the function that shows a value by
the search that the plan describes.
-/

namespace EnumNames.DisplayPlan

open Code

/-- Shows a number that has no name: the type name with the number in parentheses. -/
def fallback (typeName : String) (e : Expr) : Expr :=
  .writeNumber (typeName ++ "(\x7b\x7d)") e

/-- The distance of a number from the first value of a run; nothing is subtracted from a number that
is its own distance. -/
def offsetFrom (low : Int) (e : Expr) : Expr :=
  .binary .sub (.cast e .i128) (.int low)

/-- The function for one run: a bounds check and an offset. -/
def oneRunBody (typeName name index : String) (low : Int) : List Stmt :=
  [.bind "idx" (if low = 0 then .cast .receiver .i128 else offsetFrom low .receiver),
    .when
      (.binary .or (.binary .less (.var "idx") (.int 0))
        (.binary .atLeast (.var "idx")
          (.cast (.paren (.binary .sub (.length index) (.int 1))) .i128)))
      [.ret (fallback typeName .receiver)],
    .bind "idx" (.cast (.var "idx") .usize),
    .result (.writeText (.tableSlice name index "idx"))]

/-- The suffix that tells the tables of several runs apart. -/
def runSuffix (k : Nat) : String :=
  "_" ++ toString k

/-- The test whether a number lies in a run. A run of one value is an equality; of an unsigned run
that begins at zero only the upper end is tested. -/
def runTest (run : Run) : Expr :=
  let first := run.first.constant
  if run.isSingle then .binary .equal (.var "i") (.int run.low)
  else if first.bits = 0 ∧ !first.signed then .binary .atMost (.var "i") (.int run.high)
  else .within run.low run.high "i"

/-- The name of a number in a run. A run of one value has no array of offsets. -/
def runBlock (typeName : String) (run : Run) (k : Nat) : List Stmt :=
  let name := itemName typeName "name" (runSuffix k)
  let index := itemName typeName "index" (runSuffix k)
  if run.isSingle then [.result (.var name)]
  else
    [.bind "i" (if run.first.constant.bits = 0 then .cast (.var "i") .usize
        else .cast (.paren (offsetFrom run.low (.var "i"))) .usize),
      .result (.tableSlice name index "i")]

/-- The function for several runs: a chain of tests. -/
def multiRunBody (typeName : String) (runs : List Run) : List Stmt :=
  [.bind "i" .receiver,
    .choose "name" (runs.zipIdx.map fun (run, k) => (runTest run, runBlock typeName run k))
      [.ret (fallback typeName (.var "i"))],
    .result (.writeText (.var "name"))]

/-- The tables of several runs: all names first, then the offsets of the runs that need them. -/
def multiRunTables (typeName : String) (runs : List Run) : List Item :=
  runs.zipIdx.map (fun (run, k) =>
      .blob (itemName typeName "name" (runSuffix k)) run.table.blob)
    ++ runs.zipIdx.flatMap fun (run, k) =>
      if run.isSingle then []
      else [.offsets (itemName typeName "index" (runSuffix k)) run.table.width run.table.offsets]

/-- The arms of a match on all values: each value with the slice of the blob that is its name. -/
def sparseArms (name : String) (members : List Member) : List (Int × Expr) :=
  (members.zip (memberTable members).spans).map fun (m, low, high) =>
    (m.value, .slice name (.int low) (.int high))

/-- The function for scattered values: a match on all of them. -/
def sparseBody (typeName name : String) (members : List Member) : List Stmt :=
  [.select "name" .receiver (sparseArms name members) "i" (fallback typeName (.var "i")),
    .result (.writeText (.var "name"))]

/-- The items emitted for a plan. -/
def items (plan : DisplayPlan) (typeName : String) : List Item :=
  let name := itemName typeName "name" ""
  let index := itemName typeName "index" ""
  match plan with
  | oneRun run =>
    [.blank] ++ Item.ofTable name index run.table
      ++ [.blank, .display typeName (oneRunBody typeName name index run.low)]
  | multiRun runs =>
    [.blank] ++ multiRunTables typeName runs
      ++ [.blank, .display typeName (multiRunBody typeName runs)]
  | sparseMap members =>
    [.blank, .blob name (memberTable members).blob, .blank,
      .display typeName (sparseBody typeName name members)]

end EnumNames.DisplayPlan
