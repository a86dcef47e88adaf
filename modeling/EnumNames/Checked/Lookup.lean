import EnumNames.Checked.Display
import EnumNames.Lookup.Code

/-!
# Checked lookup

The search that a lookup plan describes, by checked operations.

* `partitionPoint` is the place up to which a condition holds, found by halving.
* `Checked.value?` finds the value that a name leads to.
-/

namespace EnumNames

/-- The place up to which a condition holds, in a list on whose front alone it holds. -/
def partitionPoint {α : Type} (holds : α → Bool) (xs : List α) : Nat :=
  let last := halve (fun i => xs[i]?.all (!holds ·)) 0 xs.length
  if xs[last]?.any holds then last + 1 else last

namespace Checked

/-- Searches entries by halving, between two places; their names are read from a table. -/
def search (entries : List LookupEntry) (table : NameTable) (name : String) (low high : Nat) :
    Checked (Option Int) := do
  if low < high then
    let ⟨distance, _⟩ ← sub high low
    let ⟨mid, _⟩ ← add low (distance / 2)
    match ← tableName? table mid with
    | none => return none
    | some s =>
      match compare name s with
      | .eq => return some (← element entries mid).value
      | .lt => search entries table name low mid
      | .gt =>
        let ⟨next, _⟩ ← add mid 1
        search entries table name next high
  else return none
termination_by high - low

/-- The value that a name leads to. -/
def value? (plan : LookupPlan) (name : String) : Checked (Option Int) := do
  match plan with
  | .hashedSwitch entries =>
    let hash := Digest.fnv1a name
    let start := partitionPoint (·.1 < hash) entries
    let bucket := (← elementsFrom entries start).takeWhile (·.1 == hash)
    return (bucket.find? (·.2.name == name)).map (·.2.value)
  | .binarySearch entries => search entries (LookupPlan.table entries) name 0 entries.length
  | .directMap entries => return (entries.find? (·.name == name)).map LookupEntry.value

end Checked

end EnumNames
