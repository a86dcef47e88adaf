import EnumNames.Checked.Basic
import EnumNames.Display.Code

/-!
# Checked display plans

The plan of a display function and its code, by checked operations. A run is here a part of the
members, of which nothing is known but what the operations find, and the tables of a plan are kept
with it.

* `Checked.runsOf` cuts members into runs.
* `Checked.Plan.select` chooses a plan, `Checked.Plan.name?` finds the name of a number.
* `Checked.Plan.items` emits the code of a plan.
-/

namespace EnumNames.Checked

open Code

/-! ## Runs -/

/-- Where the run ends that the members before place `i` belong to. -/
def runEnd (rest : List Member) (i : Nat) : Checked { j : Nat // i ≤ j } := do
  if i < rest.length then
    let next ← element rest i
    let previous ← element rest (← sub i 1)
    if previous.isFollowedBy next then
      let ⟨j, hj⟩ ← add i 1
      let ⟨last, hlast⟩ ← runEnd rest j
      return ⟨last, by omega⟩
    else return ⟨i, Nat.le_refl i⟩
  else return ⟨i, Nat.le_refl i⟩
termination_by rest.length - i

/-- Cuts members into runs. -/
def runsOf (rest : List Member) : Checked (List (List Member)) := do
  if rest.isEmpty then return []
  else
    let ⟨i, _hi⟩ ← runEnd rest 1
    let parts ← cut rest i
    return parts.front :: (← runsOf parts.back)
termination_by rest.length
decreasing_by
  have := parts.length_back
  omega

/-! ## Tables -/

/-- The number of names of a table. -/
def tableSize (table : NameTable) : Checked { n : Nat // n + 1 = table.offsets.length } :=
  sub table.offsets.length 1

/-- Begin and end of name `i`. -/
def tableSpan? (table : NameTable) (i : Nat) : Checked (Option (Nat × Nat)) := do
  if (← tableSize table) ≤ i then return none
  else
    let low ← element table.offsets i
    let high ← element table.offsets (← add i 1)
    return some (low, high)

/-- Name `i`. -/
def tableName? (table : NameTable) (i : Nat) : Checked (Option String) := do
  match ← tableSpan? table i with
  | none => return none
  | some (low, high) => return some (← slice table.blob low high)

/-! ## Plans -/

/-- How the name of a value is found, with the tables that hold the names. -/
inductive Plan
  | oneRun (run : List Member) (table : NameTable)
  | multiRun (runs : List (List Member × NameTable))
  | sparseMap (members : List Member) (table : NameTable)

namespace Plan

/-- The plan for members, given the greatest number of runs that are tested one by one. -/
def select (members : List Member) (runThreshold : Nat) : Checked Plan := do
  let runs ← runsOf members
  if runs.length = 1 then
    let run ← element runs 0
    return oneRun run (memberTable run)
  else if runs.length ≤ runThreshold then
    return multiRun (runs.map fun run => (run, memberTable run))
  else return sparseMap members (memberTable members)

/-- The name of `v` in a run, if it lies in its range. -/
def runName? (run : List Member) (table : NameTable) (v : Int) : Checked (Option String) := do
  let first ← element run 0
  let last ← element run (← sub run.length 1)
  if first.value ≤ v ∧ v ≤ last.value then
    tableName? table (← subSigned v first.value).toNat
  else return none

/-- The name of `v` in the first run that has one for it. -/
def runsName? (v : Int) : List (List Member × NameTable) → Checked (Option String)
  | [] => return none
  | (run, table) :: others => do
    match ← runName? run table v with
    | some name => return some name
    | none => runsName? v others

/-- The name of the constant with value `v`, if there is one. -/
def name? (plan : Plan) (v : Int) : Checked (Option String) := do
  match plan with
  | oneRun run table =>
    let first ← element run 0
    let distance ← subSigned v first.value
    if distance < 0 ∨ (← tableSize table) ≤ distance then return none
    else tableName? table distance.toNat
  | multiRun runs => runsName? v runs
  | sparseMap members table =>
    match findMember? members.toArray v with
    | some i => tableName? table i
    | none => return none

/-- The shape of a plan. -/
def shape : Plan → DisplayShape
  | oneRun _ _ => .oneRun
  | multiRun _ => .multiRun
  | sparseMap _ _ => .sparseMap

end Plan

/-! ## Code -/

/-- The test whether a number lies in a run. -/
def runTest (run : List Member) : Checked Expr := do
  let first ← element run 0
  let last ← element run (← sub run.length 1)
  return if run.length = 1 then .binary .equal (.var "i") (.int first.value)
    else if first.constant.bits = 0 ∧ !first.constant.signed then
      .binary .atMost (.var "i") (.int last.value)
    else .within first.value last.value "i"

/-- The name of a number in a run. -/
def runBlock (typeName : String) (run : List Member) (k : Nat) : Checked (List Stmt) := do
  let first ← element run 0
  let name := itemName typeName "name" (DisplayPlan.runSuffix k)
  let index := itemName typeName "index" (DisplayPlan.runSuffix k)
  return if run.length = 1 then [.result (.var name)]
    else
      [.bind "i" (if first.constant.bits = 0 then .cast (.var "i") .usize
          else .cast (.paren (DisplayPlan.offsetFrom first.value (.var "i"))) .usize),
        .result (.tableSlice name index "i")]

/-- The branch of a run. -/
def runBranch (typeName : String) (run : List Member) (k : Nat) : Checked (Expr × List Stmt) := do
  return (← runTest run, ← runBlock typeName run k)

/-- The function for several runs. -/
def multiRunBody (typeName : String) (runs : List (List Member × NameTable)) :
    Checked (List Stmt) := do
  let branches ← (← enumerate runs).mapM fun x => runBranch typeName x.1.1 x.2
  return [.bind "i" .receiver,
    .choose "name" branches [.ret (DisplayPlan.fallback typeName (.var "i"))],
    .result (.writeText (.var "name"))]

/-- The tables of several runs. -/
def multiRunTables (typeName : String) (runs : List (List Member × NameTable)) :
    Checked (List Item) := do
  let places ← enumerate runs
  return places.map (fun ((_, table), k) =>
      .blob (itemName typeName "name" (DisplayPlan.runSuffix k)) table.blob)
    ++ places.flatMap fun ((run, table), k) =>
      if run.length = 1 then []
      else
        [.offsets (itemName typeName "index" (DisplayPlan.runSuffix k)) table.width table.offsets]

/-- The arm of a member; there is none if the table has no name at its place. -/
def sparseArm (name : String) (table : NameTable) (m : Member) (i : Nat) :
    Checked (Option (Int × Expr)) := do
  match ← tableSpan? table i with
  | none => return none
  | some (low, high) => return some (m.value, .slice name (.int low) (.int high))

/-- The function for scattered values. -/
def sparseBody (typeName name : String) (members : List Member) (table : NameTable) :
    Checked (List Stmt) := do
  let arms ← (← enumerate members).mapM fun x => sparseArm name table x.1 x.2
  return [.select "name" .receiver (arms.filterMap id) "i"
      (DisplayPlan.fallback typeName (.var "i")),
    .result (.writeText (.var "name"))]

/-- The items emitted for a plan. -/
def Plan.items (plan : Plan) (typeName : String) : Checked (List Item) := do
  let name := itemName typeName "name" ""
  let index := itemName typeName "index" ""
  match plan with
  | oneRun run table =>
    let first ← element run 0
    return [.blank] ++ Item.ofTable name index table
      ++ [.blank, .display typeName (DisplayPlan.oneRunBody typeName name index first.value)]
  | multiRun runs =>
    return [.blank] ++ (← multiRunTables typeName runs)
      ++ [.blank, .display typeName (← multiRunBody typeName runs)]
  | sparseMap members table =>
    return [.blank, .blob name table.blob, .blank,
      .display typeName (← sparseBody typeName name members table)]

end EnumNames.Checked
