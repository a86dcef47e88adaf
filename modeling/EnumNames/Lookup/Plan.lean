import EnumNames.Digest.Fnv
import EnumNames.Member
import EnumNames.NameTable

/-!
# Lookup plans

How the value of a name is found. A small set of names is told apart by hash, names of equal hash
being tested one after another; a middling one is searched by halving; a large one is put in a map.

* `LookupPlan.entries` holds one entry for each name, of equal names the one declared first.
* `LookupPlan.select` chooses by the number of members alone.
* `LookupPlan.value?` finds the value of a name.
-/

namespace EnumNames

/-- The shape of the code that looks a name up. -/
inductive LookupShape
  | hashedSwitch
  | binarySearch
  | directMap
  deriving DecidableEq, Repr, Inhabited

namespace LookupShape

/-- Every shape, in the order of their declaration. -/
def all : List LookupShape :=
  [.hashedSwitch, .binarySearch, .directMap]

/-- The name of a shape in reports. -/
def name : LookupShape → String
  | hashedSwitch => "hashed_switch"
  | binarySearch => "binary_search"
  | directMap => "direct_map"

/-- The name of a shape in log lines. -/
def logName : LookupShape → String
  | hashedSwitch => "HashedSwitch"
  | binarySearch => "BinarySearch"
  | directMap => "DirectMap"

end LookupShape

/-- A name with the constant that it stands for. -/
structure LookupEntry where
  name : String
  reference : String
  value : Int
  position : Nat
  deriving DecidableEq, Repr

namespace LookupEntry

/-- The entry of a member. -/
def ofMember (m : Member) : LookupEntry :=
  ⟨m.constant.name, m.constant.reference, m.value, m.position⟩

/-- The order of entries: by name, then by position. -/
def le (a b : LookupEntry) : Bool :=
  ((compare a.name b.name).then (compare a.position b.position)).isLE

/-- The hash of the name. -/
def hash (e : LookupEntry) : UInt32 :=
  Digest.fnv1a e.name

end LookupEntry

/-- One entry for each name, in the order of names; of equal names the one declared first. -/
def distinctNames (members : List Member) : List LookupEntry :=
  keepFirst (fun kept later => kept.name == later.name)
    ((members.map LookupEntry.ofMember).mergeSort LookupEntry.le)

/-- Searches the places from `low` up to `high` for one that `probe` finds equal. The search ends
early where there is nothing to probe. -/
def bisect? (probe : Nat → Option Ordering) (low high : Nat) : Option Nat :=
  if low < high then
    let mid := low + (high - low) / 2
    match probe mid with
    | none => none
    | some .eq => some mid
    | some .lt => bisect? probe low mid
    | some .gt => bisect? probe (mid + 1) high
  else none
termination_by high - low

/-- How the value of a name is found. -/
inductive LookupPlan
  /-- Entries with their hashes, in the order of hash and name. -/
  | hashedSwitch (entries : List (UInt32 × LookupEntry))
  /-- Entries in the order of names. -/
  | binarySearch (entries : List LookupEntry)
  /-- Entries in the order of names, as keys of a map. -/
  | directMap (entries : List LookupEntry)
  deriving DecidableEq, Repr

namespace LookupPlan

/-- The order of hashed entries: by hash, then by name. -/
def hashedLe (a b : UInt32 × LookupEntry) : Bool :=
  ((compare a.1 b.1).then (compare a.2.name b.2.name)).isLE

/-- Entries with their hashes, in order. -/
def hashed (entries : List LookupEntry) : List (UInt32 × LookupEntry) :=
  (entries.map fun e => (e.hash, e)).mergeSort hashedLe

/-- The plan for members, given the greatest set sizes for the first and the second shape. -/
def select (members : List Member) (thresholds : Nat × Nat) : LookupPlan :=
  if members.length ≤ thresholds.1 then hashedSwitch (hashed (distinctNames members))
  else if members.length ≤ thresholds.2 then binarySearch (distinctNames members)
  else directMap (distinctNames members)

/-- The shape of a plan. -/
def shape : LookupPlan → LookupShape
  | hashedSwitch _ => .hashedSwitch
  | binarySearch _ => .binarySearch
  | directMap _ => .directMap

/-- The entries of a plan in its own order. -/
def entries : LookupPlan → List LookupEntry
  | hashedSwitch entries => entries.map Prod.snd
  | binarySearch entries | directMap entries => entries

/-- The table of the names of entries. -/
def table (entries : List LookupEntry) : NameTable :=
  .ofNames (entries.map LookupEntry.name)

/-- The entries whose hash is `h`, in a list sorted by hash. -/
def bucket (entries : List (UInt32 × LookupEntry)) (h : UInt32) : List (UInt32 × LookupEntry) :=
  (entries.dropWhile (·.1 < h)).takeWhile (·.1 == h)

/-- The entry that a name leads to. -/
def find? : LookupPlan → String → Option LookupEntry
  | hashedSwitch entries, name =>
    ((bucket entries (Digest.fnv1a name)).find? (·.2.name == name)).map Prod.snd
  | binarySearch entries, name =>
    let names := table entries
    (bisect? (fun i => (names.get? i).map (compare name ·)) 0 entries.length).bind (entries[·]?)
  | directMap entries, name => entries.find? (·.name == name)

/-- The value that a name leads to. -/
def value? (plan : LookupPlan) (name : String) : Option Int :=
  (plan.find? name).map LookupEntry.value

end LookupPlan

end EnumNames
