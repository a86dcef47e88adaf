import EnumNames.Member

/-!
# Runs

A run is a maximal stretch of members in which each value is one more than the value before it. The
values are compared as patterns, the successor of the highest pattern being zero, so that `-1` and
`0` stand in one run.
-/

namespace EnumNames

/-- Whether the pattern of `b` is the successor of the pattern of `a`. -/
def Member.isFollowedBy (a b : Member) : Bool :=
  b.constant.bits == a.constant.bits + 1

/-- A run is never empty: it has a first member and the members that follow it. -/
structure Run where
  first : Member
  rest : List Member
  deriving DecidableEq, Repr

namespace Run

/-- The members of the run in order. -/
def members (r : Run) : List Member :=
  r.first :: r.rest

/-- The last member of the run. -/
def last (r : Run) : Member :=
  r.rest.getLastD r.first

/-- The number of members. -/
def size (r : Run) : Nat :=
  r.members.length

/-- Whether the run has one member only. -/
def isSingle (r : Run) : Bool :=
  r.rest.isEmpty

/-- The least value of the run. -/
def low (r : Run) : Int :=
  r.first.value

/-- The greatest value of the run. -/
def high (r : Run) : Int :=
  r.last.value

/-- The names of the members in order. -/
def names (r : Run) : List String :=
  r.members.map Member.name

end Run

/-- Splits `m :: ms` into runs: `m` opens a run, which goes on as long as patterns follow one
another. -/
def runsFrom (m : Member) : List Member → List Run
  | [] => [⟨m, []⟩]
  | m' :: ms =>
    match runsFrom m' ms with
    | [] => [⟨m, []⟩]
    | run :: runs =>
      if m.isFollowedBy m' then ⟨m, run.members⟩ :: runs else ⟨m, []⟩ :: run :: runs

/-- Splits members into runs, in order. -/
def runs : List Member → List Run
  | [] => []
  | m :: ms => runsFrom m ms

end EnumNames
