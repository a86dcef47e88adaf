import EnumNames.Constant
import EnumNames.Error

/-!
# Member sets

The member set of an enumeration holds one member for each value: the constant declared first. It is
what the emitted code is made from; constants that repeat a value occur in the guard only.

* `keepFirst` drops from a list what repeats the entry kept before it.
* `Enumeration.memberSet` sorts the constants by value, which keeps the order of declaration among
  equal ones, and then drops the repeated patterns.
-/

namespace EnumNames

/-- A constant with its place in the order of declaration. -/
structure Member where
  position : Nat
  constant : Constant
  deriving DecidableEq, Repr, Inhabited

namespace Member

/-- The text shown for the member. -/
def name (m : Member) : String :=
  m.constant.name

/-- The number that the member stands for. -/
def value (m : Member) : Int :=
  m.constant.value

end Member

/-- The members of one enumeration. -/
structure MemberSet where
  typeName : String
  kind : Kind
  /-- In increasing order of value, no pattern twice in a row. -/
  members : List Member
  deriving DecidableEq, Repr

/-- From `kept` on, drops each entry that `repeats` the last one kept. -/
def keepFirstAfter {α : Type} (repeats : α → α → Bool) (kept : α) : List α → List α
  | [] => [kept]
  | a :: rest =>
    if repeats kept a then keepFirstAfter repeats kept rest
    else kept :: keepFirstAfter repeats a rest

/-- Drops each entry that `repeats` the last one kept. -/
def keepFirst {α : Type} (repeats : α → α → Bool) : List α → List α
  | [] => []
  | a :: rest => keepFirstAfter repeats a rest

namespace Enumeration

/-- The constants with their positions. -/
def declared (e : Enumeration) : List Member :=
  e.constants.zipIdx.map fun (constant, position) => ⟨position, constant⟩

/-- One member for each pattern: of equal values the one declared first. -/
def distinctMembers (e : Enumeration) : List Member :=
  keepFirst (fun kept later => kept.constant.bits == later.constant.bits)
    (e.declared.mergeSort fun a b => a.value ≤ b.value)

/-- The member set, if the kind is an integer kind and there is a constant. The kind is judged
first. -/
def memberSet (e : Enumeration) : Except InputError MemberSet :=
  match Kind.ofText? e.kind with
  | none => .error (.unsupportedKind e.name e.kind)
  | some kind =>
    if e.constants.isEmpty then .error (.noConstants e.name)
    else .ok ⟨e.name, kind, e.distinctMembers⟩

end Enumeration

end EnumNames
