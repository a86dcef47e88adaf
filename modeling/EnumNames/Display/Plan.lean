import EnumNames.NameTable
import EnumNames.Run

/-!
# Display plans

How the name of a value is found. One run is a bounds check and an offset into one table; a few runs
are range tests, each with a table of its own; more runs than the threshold are a search among all
values, over one table.

* `DisplayPlan.select` chooses by the number of runs alone.
* `DisplayPlan.name?` finds the name of a number, `DisplayPlan.text` the text shown for it.
-/

namespace EnumNames

/-- The shape of the code that shows a value. -/
inductive DisplayShape
  | oneRun
  | multiRun
  | sparseMap
  deriving DecidableEq, Repr, Inhabited

namespace DisplayShape

/-- Every shape, in the order of their declaration. -/
def all : List DisplayShape :=
  [.oneRun, .multiRun, .sparseMap]

/-- The name of a shape in reports. -/
def name : DisplayShape → String
  | oneRun => "one_run"
  | multiRun => "multi_run"
  | sparseMap => "sparse_map"

/-- The name of a shape in log lines. -/
def logName : DisplayShape → String
  | oneRun => "OneRun"
  | multiRun => "MultiRun"
  | sparseMap => "SparseMap"

end DisplayShape

/-- How the name of a value is found. -/
inductive DisplayPlan
  /-- By the distance from the first value of the only run. -/
  | oneRun (run : Run)
  /-- By the first run in whose range the value lies. -/
  | multiRun (runs : List Run)
  /-- By a search among all members. -/
  | sparseMap (members : List Member)
  deriving DecidableEq, Repr

/-- The table of the names of a run. -/
def Run.table (r : Run) : NameTable :=
  .ofNames r.names

/-- The table of the names of members. -/
def memberTable (members : List Member) : NameTable :=
  .ofNames (members.map Member.name)

/-- Narrows `size` places from `base` on down to one: the upper half is kept unless its first place
is `greater` than what is looked for. -/
def halve (greater : Nat → Bool) (base size : Nat) : Nat :=
  if size ≤ 1 then base
  else
    let half := size / 2
    halve greater (if greater (base + half) then base else base + half) (size - half)
termination_by size

/-- Place of the member with value `v` among members in increasing order. -/
def findMember? (members : Array Member) (v : Int) : Option Nat :=
  let place := halve (fun i => match members[i]? with
    | some m => v < m.value
    | none => true) 0 members.size
  match members[place]? with
  | some m => if m.value = v then some place else none
  | none => none

namespace DisplayPlan

/-- The plan for members, given the greatest number of runs that are tested one by one. -/
def select (members : List Member) (runThreshold : Nat) : DisplayPlan :=
  match runs members with
  | [run] => oneRun run
  | runs => if runs.length ≤ runThreshold then multiRun runs else sparseMap members

/-- The shape of a plan. -/
def shape : DisplayPlan → DisplayShape
  | oneRun _ => .oneRun
  | multiRun _ => .multiRun
  | sparseMap _ => .sparseMap

/-- The name of `v` in a run that is known to hold it. -/
def runName? (run : Run) (v : Int) : Option String :=
  run.table.get? (v - run.low).toNat

/-- The name of the constant with value `v`, if there is one. -/
def name? : DisplayPlan → Int → Option String
  | oneRun run, v => if v < run.low then none else runName? run v
  | multiRun runs, v =>
    runs.findSome? fun run => if run.low ≤ v ∧ v ≤ run.high then runName? run v else none
  | sparseMap members, v =>
    (findMember? members.toArray v).bind fun i => (memberTable members).get? i

/-- The text shown for `v`: its name, or the type name with the number in parentheses. -/
def text (plan : DisplayPlan) (typeName : String) (v : Int) : String :=
  (plan.name? v).getD (typeName ++ "(" ++ toString v ++ ")")

end DisplayPlan

end EnumNames
