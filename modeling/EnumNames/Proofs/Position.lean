import EnumNames.Display.Code
import EnumNames.Lookup.Code
import EnumNames.Proofs.Lookup.Entries

/-!
# Positions leave no trace

The position of a member decides which of the entries of one name is kept, and nothing else. Members
can be moved to other positions: all that is made from them moves along, and the emitted items stay
the same.

* `DisplayPlan.select_moved`, `DisplayPlan.items_moved`: no display plan looks at positions.
* `distinctNames_moved`, `LookupPlan.select_moved`: a lookup plan looks at the order of positions
  among members of one name.
-/

namespace EnumNames

variable (f : Nat → Nat)

/-! ## Members and runs -/

/-- The member at another position. -/
def Member.moved (m : Member) : Member :=
  ⟨f m.position, m.constant⟩

@[simp] theorem Member.constant_moved (m : Member) : (m.moved f).constant = m.constant := rfl

@[simp] theorem Member.value_moved (m : Member) : (m.moved f).value = m.value := rfl

@[simp] theorem Member.name_moved (m : Member) : (m.moved f).name = m.name := rfl

/-- The table of names does not depend on positions. -/
theorem memberTable_moved (ms : List Member) :
    memberTable (ms.map (·.moved f)) = memberTable ms := by
  rw [memberTable, List.map_map]
  rfl

namespace Run

/-- The run with its members at other positions. -/
def moved (r : Run) : Run :=
  ⟨r.first.moved f, r.rest.map (·.moved f)⟩

variable (r : Run)

@[simp] theorem first_moved : (r.moved f).first = r.first.moved f := rfl

@[simp] theorem isSingle_moved : (r.moved f).isSingle = r.isSingle :=
  List.isEmpty_map

@[simp] theorem low_moved : (r.moved f).low = r.low := rfl

@[simp] theorem high_moved : (r.moved f).high = r.high := by
  have hlast : (r.moved f).last = r.last.moved f := by
    rw [last, last, moved, List.getLastD_eq_getLast?, List.getLastD_eq_getLast?, List.getLast?_map]
    cases r.rest.getLast? <;> rfl
  rw [high, hlast]
  rfl

@[simp] theorem table_moved : (r.moved f).table = r.table :=
  memberTable_moved f r.members

end Run

theorem runsFrom_moved (m : Member) (ms : List Member) :
    runsFrom (m.moved f) (ms.map (·.moved f)) = (runsFrom m ms).map (·.moved f) := by
  induction ms generalizing m with
  | nil => rfl
  | cons m' ms ih =>
    rw [List.map_cons, runsFrom, ih, runsFrom]
    cases runsFrom m' ms with
    | nil => rfl
    | cons run runs =>
      have hfollows : (m.moved f).isFollowedBy (m'.moved f) = m.isFollowedBy m' := rfl
      rw [List.map_cons]
      simp only [hfollows]
      split <;> rfl

theorem runs_moved (ms : List Member) : runs (ms.map (·.moved f)) = (runs ms).map (·.moved f) := by
  cases ms with
  | nil => rfl
  | cons m ms => exact runsFrom_moved f m ms

/-! ## Display plans -/

namespace DisplayPlan

/-- The plan with its members at other positions. -/
def moved : DisplayPlan → DisplayPlan
  | oneRun run => oneRun (run.moved f)
  | multiRun runs => multiRun (runs.map (·.moved f))
  | sparseMap members => sparseMap (members.map (·.moved f))

/-- The choice of a display plan does not depend on positions. -/
theorem select_moved (members : List Member) (runThreshold : Nat) :
    select (members.map (·.moved f)) runThreshold = (select members runThreshold).moved f := by
  rw [select, select, runs_moved]
  cases runs members with
  | nil => simp [moved]
  | cons run runs =>
    cases runs with
    | nil => rfl
    | cons run' runs =>
      simp only [List.map_cons, List.length_cons, List.length_map]
      split <;> rfl

@[simp] theorem shape_moved (plan : DisplayPlan) : (plan.moved f).shape = plan.shape := by
  cases plan <;> rfl

theorem runTest_moved (run : Run) : runTest (run.moved f) = runTest run := by
  simp only [runTest, Run.first_moved, Run.isSingle_moved, Run.low_moved, Run.high_moved,
    Member.constant_moved]

theorem runBlock_moved (typeName : String) (run : Run) (k : Nat) :
    runBlock typeName (run.moved f) k = runBlock typeName run k := by
  rw [runBlock, Run.isSingle_moved, Run.low_moved]
  rfl

theorem multiRunTables_moved (typeName : String) (runs : List Run) :
    multiRunTables typeName (runs.map (·.moved f)) = multiRunTables typeName runs := by
  rw [multiRunTables, List.zipIdx_map, List.map_map, List.flatMap_map]
  simp [multiRunTables, Function.comp_def, Prod.map]

theorem multiRunBody_moved (typeName : String) (runs : List Run) :
    multiRunBody typeName (runs.map (·.moved f)) = multiRunBody typeName runs := by
  rw [multiRunBody, List.zipIdx_map, List.map_map]
  simp only [multiRunBody, Function.comp_def, Prod.map, runTest_moved, runBlock_moved]
  rfl

theorem sparseArms_moved (name : String) (members : List Member) :
    sparseArms name (members.map (·.moved f)) = sparseArms name members := by
  rw [sparseArms, memberTable_moved, List.zip_map_left, List.map_map]
  rfl

/-- The items of a plan do not depend on positions. -/
theorem items_moved (plan : DisplayPlan) (typeName : String) :
    (plan.moved f).items typeName = plan.items typeName := by
  cases plan with
  | oneRun run => simp only [moved, items, Run.table_moved, Run.low_moved]
  | multiRun runs => simp only [moved, items, multiRunTables_moved, multiRunBody_moved]
  | sparseMap members =>
    simp only [moved, items, sparseBody, memberTable_moved, sparseArms_moved]

end DisplayPlan

/-! ## Entries -/

/-- What is kept of entries that are changed, if the change does not show in what repeats. -/
theorem keepFirst_map {α β : Type} {repeats : α → α → Bool} {repeats' : β → β → Bool} {g : α → β}
    (hg : ∀ a b, repeats' (g a) (g b) = repeats a b) (l : List α) :
    keepFirst repeats' (l.map g) = (keepFirst repeats l).map g := by
  have hafter : ∀ (l : List α) (kept : α),
      keepFirstAfter repeats' (g kept) (l.map g) = (keepFirstAfter repeats kept l).map g := by
    intro l
    induction l with
    | nil => exact fun _ => rfl
    | cons a l ih =>
      intro kept
      rw [List.map_cons, keepFirstAfter, hg, ih, ih, keepFirstAfter]
      split <;> rfl
  cases l with
  | nil => rfl
  | cons a l => exact hafter l a

/-- The entry at another position. -/
def LookupEntry.moved (e : LookupEntry) : LookupEntry :=
  { e with position := f e.position }

/-- Positions matter among members of one name. -/
def KeepsOrderOfNames (members : List Member) : Prop :=
  ∀ a ∈ members, ∀ b ∈ members, a.name = b.name → (a.position ≤ b.position ↔ f a.position ≤ f b.position)

variable {f}

/-- Where the order of names is kept, the same entries are kept. -/
theorem distinctNames_moved {members : List Member} (h : KeepsOrderOfNames f members) :
    distinctNames (members.map (·.moved f)) = (distinctNames members).map (·.moved f) := by
  have hentries : (members.map (·.moved f)).map LookupEntry.ofMember
      = (members.map LookupEntry.ofMember).map (·.moved f) := by
    rw [List.map_map, List.map_map]
    rfl
  have hle : ∀ a ∈ members.map LookupEntry.ofMember, ∀ b ∈ members.map LookupEntry.ofMember,
      LookupEntry.le a b = LookupEntry.le (a.moved f) (b.moved f) := by
    intro a ha b hb
    obtain ⟨m, hm, rfl⟩ := List.mem_map.1 ha
    obtain ⟨m', hm', rfl⟩ := List.mem_map.1 hb
    rw [Bool.eq_iff_iff, LookupEntry.le_iff, LookupEntry.le_iff]
    refine or_congr Iff.rfl (and_congr_right fun hname => ?_)
    exact h m hm m' hm' hname
  rw [distinctNames, hentries, ← List.map_mergeSort hle]
  exact keepFirst_map (fun _ _ => rfl) _

/-! ## Lookup plans -/

namespace LookupPlan

variable (f) in
/-- The plan with its entries at other positions. -/
def moved : LookupPlan → LookupPlan
  | hashedSwitch entries => hashedSwitch (entries.map (Prod.map id (·.moved f)))
  | binarySearch entries => binarySearch (entries.map (·.moved f))
  | directMap entries => directMap (entries.map (·.moved f))

theorem hashed_moved (entries : List LookupEntry) :
    hashed (entries.map (·.moved f)) = (hashed entries).map (Prod.map id (·.moved f)) := by
  have hentries : (entries.map (·.moved f)).map (fun e => (e.hash, e))
      = (entries.map fun e => (e.hash, e)).map (Prod.map id (·.moved f)) := by
    rw [List.map_map, List.map_map]
    rfl
  have hle : ∀ a ∈ entries.map (fun e => (e.hash, e)), ∀ b ∈ entries.map (fun e => (e.hash, e)),
      hashedLe a b
        = hashedLe (Prod.map id (LookupEntry.moved f) a) (Prod.map id (LookupEntry.moved f) b) :=
    fun _ _ _ _ => rfl
  rw [hashed, hentries, hashed]
  exact (List.map_mergeSort hle).symm

theorem select_moved {members : List Member} (h : KeepsOrderOfNames f members)
    (thresholds : Nat × Nat) :
    select (members.map (·.moved f)) thresholds = (select members thresholds).moved f := by
  rw [select, select, List.length_map, distinctNames_moved h, hashed_moved]
  split
  · rfl
  · split <;> rfl

@[simp] theorem shape_moved (plan : LookupPlan) : (plan.moved f).shape = plan.shape := by
  cases plan <;> rfl

theorem table_moved (entries : List LookupEntry) :
    table (entries.map (·.moved f)) = table entries := by
  rw [table, List.map_map]
  rfl

theorem hashArms_moved (entries : List (UInt32 × LookupEntry)) :
    hashArms (entries.map (Prod.map id (·.moved f)))
      = (hashArms entries).map (Prod.map id (List.map (·.moved f))) := by
  induction entries with
  | nil => rfl
  | cons entry entries ih =>
    obtain ⟨h, e⟩ := entry
    rw [List.map_cons, Prod.map_apply, hashArms, ih, hashArms]
    cases hashArms entries with
    | nil => rfl
    | cons arm arms =>
      obtain ⟨h', es⟩ := arm
      simp only [List.map_cons, Prod.map_apply, id_eq]
      split <;> rfl

theorem hashBlock_moved (entries : List LookupEntry) :
    hashBlock (entries.map (·.moved f)) = hashBlock entries := by
  rw [hashBlock, List.map_map]
  rfl

/-- The items of a plan do not depend on positions. -/
theorem items_moved (plan : LookupPlan) (typeName functionName : String) :
    (plan.moved f).items typeName functionName = plan.items typeName functionName := by
  cases plan with
  | hashedSwitch entries =>
    simp only [moved, items, hashedBody, hashArms_moved, List.map_map, Function.comp_def,
      Prod.map, hashBlock_moved, id_eq]
  | binarySearch entries =>
    simp only [moved, items, table_moved, List.map_map]
    rfl
  | directMap entries =>
    simp only [moved, items, List.map_map]
    rfl

end LookupPlan

end EnumNames
