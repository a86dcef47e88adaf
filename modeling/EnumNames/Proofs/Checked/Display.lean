import EnumNames.Checked.Display
import EnumNames.Proofs.Checked.Basic
import EnumNames.Proofs.Run

/-!
# Display plans meet no fault

A run holds a member, a plan for one run has a first run, and a table has one offset more than
names. So a display plan is chosen and its code emitted without a fault, whatever the members are,
provided that they can be counted by machine words.

* `runsOf_eq`: members are cut into their runs.
* `tableSpan?_ofNames`, `tableName?_ofNames`: spans and names are read from a table.
* `Plan.select_eq`, `Plan.items_ofPlan`: the plan of some members, and the code of a plan.
-/

namespace EnumNames

/-! ## Runs one after the other -/

/-- What follows the first run is cut into the other runs. -/
theorem runs_drop_of_runsFrom {m : Member} {ms : List Member} {run : Run} {others : List Run}
    (h : runsFrom m ms = run :: others) : runs ((m :: ms).drop run.size) = others := by
  induction ms generalizing m run others with
  | nil =>
    obtain ⟨rfl, rfl⟩ := List.cons.inj h
    rfl
  | cons m' ms ih =>
    obtain ⟨run', others', hrest, hcons⟩ := runsFrom_cons m m' ms
    rw [hcons] at h
    split at h
    · obtain ⟨rfl, rfl⟩ := List.cons.inj h
      exact ih hrest
    · obtain ⟨rfl, rfl⟩ := List.cons.inj h
      exact hrest

/-- Runs are not empty, so there are no more of them than members. -/
theorem length_runsFrom_le (m : Member) (ms : List Member) :
    (runsFrom m ms).length ≤ (m :: ms).length := by
  induction ms generalizing m with
  | nil => exact Nat.le_refl 1
  | cons m' ms ih =>
    obtain ⟨run, others, hrest, hcons⟩ := runsFrom_cons m m' ms
    have hle := ih m'
    rw [hrest] at hle
    rw [hcons]
    simp only [List.length_cons] at hle ⊢
    split <;> simp only [List.length_cons] <;> omega

theorem length_runs_le (ms : List Member) : (runs ms).length ≤ ms.length := by
  cases ms with
  | nil => exact Nat.le_refl 0
  | cons m ms => exact length_runsFrom_le m ms

/-- A run has no more members than the list it was cut from. -/
theorem length_members_le_of_mem_runs {ms : List Member} {run : Run} (h : run ∈ runs ms) :
    run.members.length ≤ ms.length := by
  calc run.members.length
      ≤ ((runs ms).map Run.members).flatten.length :=
        (List.sublist_flatten_of_mem (List.mem_map_of_mem h)).length_le
    _ = ms.length := by rw [← List.flatMap_def, flatMap_members_runs]

/-- The value of a constant fits 64 bits, read with a sign or without. -/
theorem Constant.value_bounds (c : Constant) :
    -0x8000000000000000 ≤ c.value ∧ c.value < 0x10000000000000000 := by
  have hbits := c.bits.isLt
  cases hsigned : c.signed with
  | false =>
    simp only [Constant.value, hsigned, Bool.false_eq_true, if_false]
    omega
  | true =>
    simp only [Constant.value, hsigned, if_true, BitVec.toInt_eq_toNat_cond]
    omega

/-- The last member of a run is read at the place before its length. -/
theorem Run.getElem?_members_last (r : Run) : r.members[r.members.length - 1]? = some r.last := by
  rw [← List.getLast?_eq_getElem?, members, List.getLast?_cons, last, List.getLastD_eq_getLast?]

/-- The length tells the runs of one member from the longer ones. -/
theorem Run.length_members_eq_one (r : Run) : r.members.length = 1 ↔ r.isSingle = true := by
  rw [members, List.length_cons, isSingle, List.isEmpty_iff_length_eq_zero]
  omega

namespace Checked

open Code

/-! ## Runs -/

/-- Behind the members in `front`, the run of `m` ends where its successors do. -/
theorem runEnd_eq (front : List Member) {rest ms : List Member} {m : Member} {run : Run}
    {others : List Run} {i : Nat} (hrest : rest = front ++ m :: ms) (hi : i = front.length + 1)
    (hlength : rest.length < wordCount) (h : runsFrom m ms = run :: others) :
    ∃ last, runEnd rest i = .ok last ∧ last.val = front.length + run.size := by
  induction ms generalizing front m run others i with
  | nil =>
    obtain ⟨rfl, rfl⟩ := List.cons.inj h
    refine ⟨⟨i, Nat.le_refl i⟩, ?_, hi⟩
    rw [runEnd, if_neg (by simp [hrest, hi])]
    rfl
  | cons m' ms ih =>
    have hcount : rest.length = front.length + ms.length + 2 := by
      rw [hrest, List.length_append, List.length_cons, List.length_cons]
      omega
    have hnext : rest[i]? = some m' := by
      rw [hrest, List.getElem?_append_right (by omega), hi, Nat.add_sub_cancel_left]
      rfl
    have hprevious : rest[i - 1]? = some m := by
      rw [hrest, hi, Nat.add_sub_cancel, List.getElem?_append_right (Nat.le_refl _), Nat.sub_self]
      rfl
    obtain ⟨run', others', hruns, hcons⟩ := runsFrom_cons m m' ms
    rw [hcons] at h
    rw [runEnd, if_pos (by omega), element_eq hnext, ok_bind, sub_eq (by omega), ok_bind,
      element_eq hprevious, ok_bind]
    split at h
    · next hfollowed =>
      obtain ⟨rfl, rfl⟩ := List.cons.inj h
      -- the loop goes on with `m` among the members before
      obtain ⟨last, hend, hlast⟩ := ih (front ++ [m]) (i := i + 1) (by simp [hrest])
        (by simp [hi]) hruns
      rw [if_pos hfollowed, add_eq (by omega), ok_bind]
      simp only [hend, ok_bind]
      refine ⟨_, rfl, ?_⟩
      rw [hlast, List.length_append, List.length_singleton, Run.size_eq, Run.size_eq,
        Nat.add_assoc, Nat.add_comm 1]
      rfl
    · next hfollowed =>
      obtain ⟨rfl, rfl⟩ := List.cons.inj h
      rw [if_neg hfollowed]
      exact ⟨_, rfl, hi⟩

/-- Members are cut into their runs, each of which holds a member. -/
theorem runsOf_eq {members : List Member} (h : members.length < wordCount) :
    runsOf members = .ok ((runs members).map Run.members) := by
  -- the induction is on the length, since what follows a run is no tail of the list
  induction hn : members.length using Nat.strong_induction_on generalizing members with
  | h n ih =>
    cases members with
    | nil =>
      rw [runsOf]
      rfl
    | cons m ms =>
      obtain ⟨run, others, hruns⟩ := List.exists_cons_of_ne_nil (runsFrom_ne_nil m ms)
      have hmembers : m :: ms = run.members ++ others.flatMap Run.members := by
        rw [← flatMap_members_runsFrom m ms, hruns, List.flatMap_cons]
      have hfront : (m :: ms).take run.size = run.members := by
        rw [hmembers, Run.size, List.take_left]
      have hsize : run.size ≤ (m :: ms).length := by
        rw [hmembers, List.length_append, Run.size]
        exact Nat.le_add_right _ _
      have hpos := run.size_eq
      have hback : ((m :: ms).drop run.size).length < n := by
        rw [List.length_drop]
        omega
      obtain ⟨⟨last, hle⟩, hend, hlast⟩ := runEnd_eq [] (i := 1)
        (List.nil_append _).symm rfl h hruns
      obtain rfl : last = run.size := hlast.trans (Nat.zero_add _)
      rw [runsOf, if_neg (by simp), hend, ok_bind]
      simp only [cut_eq hsize, ok_bind]
      rw [ih _ hback (by omega) rfl, hfront, runs_drop_of_runsFrom hruns]
      show _ = Except.ok ((runsFrom m ms).map Run.members)
      rw [hruns]
      rfl

/-! ## Tables -/

section Tables

variable {names : List String} {i : Nat}

/-- The number of names is computed from the offsets, of which there is one at least. -/
theorem tableSize_ofNames (names : List String) :
    ∃ h, tableSize (.ofNames names) = .ok ⟨names.length, h⟩ := by
  have hlength := NameTable.length_offsets_ofNames names
  refine ⟨hlength.symm, ?_⟩
  rw [tableSize, sub_eq (by omega)]
  congr 2
  omega

/-- A span is read from two offsets, which are there for every name. -/
theorem tableSpan?_ofNames (h : names.length < wordCount) (i : Nat) :
    tableSpan? (.ofNames names) i = .ok ((NameTable.ofNames names).span? i) := by
  obtain ⟨_, hsize⟩ := tableSize_ofNames names
  rw [tableSpan?, hsize, ok_bind]
  by_cases hi : i < names.length
  · simp only [if_neg (Nat.not_le.2 hi)]
    rw [element_eq (NameTable.getElem?_offsets_ofNames (Nat.le_of_lt hi)), ok_bind,
      add_eq (by omega), ok_bind, element_eq (NameTable.getElem?_offsets_ofNames hi), ok_bind,
      NameTable.span?_ofNames hi]
    rfl
  · simp only [if_pos (Nat.not_lt.1 hi)]
    rw [NameTable.span?_ofNames_of_le (Nat.not_lt.1 hi)]
    rfl

/-- A name is read from the bytes of its span. -/
theorem tableName?_ofNames (h : names.length < wordCount) (i : Nat) :
    tableName? (.ofNames names) i = .ok ((NameTable.ofNames names).get? i) := by
  rw [tableName?, tableSpan?_ofNames h, ok_bind, NameTable.get?_ofNames]
  by_cases hi : i < names.length
  · rw [NameTable.span?_ofNames hi, List.getElem?_eq_getElem hi]
    simp only [slice_blob_ofNames hi]
    rfl
  · rw [NameTable.span?_ofNames_of_le (Nat.not_lt.1 hi),
      List.getElem?_eq_none (Nat.not_lt.1 hi)]
    rfl

end Tables

/-! ## Plans -/

/-- A display plan with the tables that hold its names. -/
def Plan.ofPlan : DisplayPlan → Plan
  | .oneRun run => .oneRun run.members run.table
  | .multiRun runs => .multiRun (runs.map fun run => (run.members, run.table))
  | .sparseMap members => .sparseMap members (memberTable members)

/-- A checked plan has the shape of the plan it stands for. -/
@[simp] theorem Plan.shape_ofPlan (plan : DisplayPlan) : (ofPlan plan).shape = plan.shape := by
  cases plan <;> rfl

/-- The plan is chosen without a fault; a single run is the first one. -/
theorem Plan.select_eq {members : List Member} (h : members.length < wordCount)
    (runThreshold : Nat) :
    select members runThreshold = .ok (ofPlan (DisplayPlan.select members runThreshold)) := by
  rw [select, runsOf_eq h, ok_bind, List.length_map, DisplayPlan.select]
  cases runs members with
  | nil =>
    rw [if_neg (by simp)]
    split
    · rfl
    · next hzero => exact absurd (Nat.zero_le _) hzero
  | cons run others =>
    cases others with
    | nil => rfl
    | cons run' others =>
      rw [if_neg (by simp)]
      simp only
      split
      · rw [List.map_map]
        rfl
      · rfl

/-! ## Names of numbers -/

/-- A number that fits 64 bits, read with a sign or without. -/
def FitsWord (v : Int) : Prop :=
  -0x8000000000000000 ≤ v ∧ v < 0x10000000000000000

section Names

variable {v : Int}

/-- The distance of a number from a value is computed without a fault. -/
theorem subSigned_value (h : FitsWord v) (m : Member) :
    subSigned v m.value = .ok (v - m.value) := by
  have hvalue := m.constant.value_bounds
  have hv := h
  unfold FitsWord at hv
  exact subSigned_eq (by unfold Member.value; omega) (by unfold Member.value; omega)

/-- A name of a run is read from its table as the plan reads it. -/
theorem tableName?_table {run : Run} (h : run.members.length < wordCount) (i : Nat) :
    tableName? run.table i = .ok (run.table.get? i) :=
  tableName?_ofNames (by rwa [Run.names, List.length_map]) i

/-- The checked search looks into a run exactly if the number lies between its ends. -/
theorem runName?_members {run : Run} (h : run.members.length < wordCount) (hv : FitsWord v) :
    Plan.runName? run.members run.table v
      = .ok (if run.low ≤ v ∧ v ≤ run.high then DisplayPlan.runName? run v else none) := by
  have hfirst : run.members[0]? = some run.first := rfl
  have hpos : 1 ≤ run.members.length := Nat.le_add_left 1 run.rest.length
  have hrange : run.first.value ≤ v ∧ v ≤ run.last.value ↔ run.low ≤ v ∧ v ≤ run.high := .rfl
  rw [Plan.runName?, element_eq hfirst, ok_bind, sub_eq hpos, ok_bind,
    element_eq run.getElem?_members_last, ok_bind]
  simp only [hrange]
  split
  · rw [subSigned_value hv, ok_bind]
    exact tableName?_table h _
  · rfl

/-- The checked search finds in several runs what the plan finds there. -/
theorem runsName?_members {runs : List Run} (hv : FitsWord v)
    (h : ∀ run ∈ runs, run.members.length < wordCount) :
    Plan.runsName? v (runs.map fun run => (run.members, run.table))
      = .ok ((DisplayPlan.multiRun runs).name? v) := by
  induction runs with
  | nil => rfl
  | cons run others ih =>
    have hrest := ih fun r hr => h r (List.mem_cons_of_mem run hr)
    rw [List.map_cons, Plan.runsName?, runName?_members (h run List.mem_cons_self) hv, ok_bind,
      DisplayPlan.name?, List.findSome?_cons]
    cases if run.low ≤ v ∧ v ≤ run.high then DisplayPlan.runName? run v else none with
    | none => exact hrest
    | some name => rfl

/-- The name of a number is found without a fault. -/
theorem Plan.name?_select {members : List Member} (h : members.length < wordCount)
    (runThreshold : Nat) (hv : FitsWord v) :
    (ofPlan (.select members runThreshold)).name? v
      = .ok ((DisplayPlan.select members runThreshold).name? v) := by
  have hruns : ∀ run ∈ runs members, run.members.length < wordCount :=
    fun run hrun => Nat.lt_of_le_of_lt (length_members_le_of_mem_runs hrun) h
  rw [DisplayPlan.select]
  split
  · next run hone =>
    have hrun := hruns run (by rw [hone]; exact List.mem_singleton_self run)
    have hfirst : run.members[0]? = some run.first := rfl
    obtain ⟨_, hsize⟩ := tableSize_ofNames run.names
    rw [ofPlan, name?]
    simp only [element_eq hfirst, ok_bind, subSigned_value hv, Run.table, hsize]
    have hname : (DisplayPlan.oneRun run).name? v
        = if v < run.first.value then none
          else (NameTable.ofNames run.names).get? (v - run.first.value).toNat := rfl
    rw [hname]
    -- below the run, in it or above it; the table has no name behind its last one
    by_cases hlow : v < run.first.value
    · rw [if_pos (.inl (by omega)), if_pos hlow]
      rfl
    · rw [if_neg hlow]
      by_cases hhigh : (run.names.length : Int) ≤ v - run.first.value
      · rw [if_pos (.inr hhigh), NameTable.get?_ofNames, List.getElem?_eq_none (by omega)]
        rfl
      · rw [if_neg (by omega)]
        exact tableName?_table hrun _
  · split
    · exact runsName?_members hv hruns
    · rw [ofPlan, name?, DisplayPlan.name?]
      cases findMember? members.toArray v with
      | none => rfl
      | some i => exact tableName?_ofNames (by rwa [List.length_map]) i

end Names

/-! ## Code -/

theorem runTest_members (run : Run) : runTest run.members = .ok (DisplayPlan.runTest run) := by
  have hfirst : run.members[0]? = some run.first := rfl
  have hpos : 1 ≤ run.members.length := Nat.le_add_left 1 run.rest.length
  rw [runTest, element_eq hfirst, ok_bind, sub_eq hpos, ok_bind,
    element_eq run.getElem?_members_last, ok_bind, DisplayPlan.runTest]
  simp only [run.length_members_eq_one]
  rfl

theorem runBlock_members (typeName : String) (run : Run) (k : Nat) :
    runBlock typeName run.members k = .ok (DisplayPlan.runBlock typeName run k) := by
  have hfirst : run.members[0]? = some run.first := rfl
  rw [runBlock, element_eq hfirst, ok_bind, DisplayPlan.runBlock]
  simp only [run.length_members_eq_one]
  rfl

theorem runBranch_members (typeName : String) (run : Run) (k : Nat) :
    runBranch typeName run.members k
      = .ok (DisplayPlan.runTest run, DisplayPlan.runBlock typeName run k) := by
  rw [runBranch, runTest_members, ok_bind, runBlock_members, ok_bind, pure_eq]

theorem multiRunBody_members {runs : List Run} (h : runs.length < wordCount) (typeName : String) :
    multiRunBody typeName (runs.map fun run => (run.members, run.table))
      = .ok (DisplayPlan.multiRunBody typeName runs) := by
  have hbranches := mapM_eq fun x (_ : x ∈ runs.zipIdx) => runBranch_members typeName x.1 x.2
  rw [multiRunBody, enumerate_eq (by rwa [List.length_map]), ok_bind, List.zipIdx_map,
    List.mapM_map]
  exact congrArg (· >>= _) hbranches

theorem multiRunTables_members {runs : List Run} (h : runs.length < wordCount)
    (typeName : String) :
    multiRunTables typeName (runs.map fun run => (run.members, run.table))
      = .ok (DisplayPlan.multiRunTables typeName runs) := by
  rw [multiRunTables, enumerate_eq (by rwa [List.length_map]), ok_bind, List.zipIdx_map,
    List.map_map, List.flatMap_map]
  simp only [Prod.map, Run.length_members_eq_one]
  rfl

/-- Pairing with a second list is looking its elements up by place. -/
theorem zip_drop_eq_filterMap {α β : Type} (xs : List α) (ys : List β) (k : Nat) :
    xs.zip (ys.drop k) = (xs.zipIdx k).filterMap fun x => ys[x.2]?.map (x.1, ·) := by
  induction xs generalizing k with
  | nil => rfl
  | cons x xs ih =>
    rw [List.zipIdx_cons, List.filterMap_cons, ← ih]
    cases hy : ys[k]? with
    | none =>
      have hle := List.getElem?_eq_none_iff.1 hy
      rw [List.drop_eq_nil_of_le hle, List.drop_eq_nil_of_le (Nat.le_succ_of_le hle),
        List.zip_nil_right, List.zip_nil_right, Option.map_none]
    | some y =>
      obtain ⟨hk, rfl⟩ := List.getElem?_eq_some_iff.1 hy
      rw [List.drop_eq_getElem_cons hk, List.zip_cons_cons, Option.map_some]

theorem sparseBody_memberTable {members : List Member} (h : members.length < wordCount)
    (typeName name : String) :
    sparseBody typeName name members (memberTable members)
      = .ok (DisplayPlan.sparseBody typeName name members) := by
  let arm (x : Member × Nat × Nat) : Int × Expr :=
    (x.1.value, .slice name (.int x.2.1) (.int x.2.2))
  have harms : members.zipIdx.mapM (fun x => sparseArm name (memberTable members) x.1 x.2)
      = .ok (members.zipIdx.map fun x =>
        ((memberTable members).span? x.2).map fun span => arm (x.1, span)) := by
    refine mapM_eq fun x _ => ?_
    rw [sparseArm, memberTable, tableSpan?_ofNames (by rwa [List.length_map]), ok_bind]
    cases (NameTable.ofNames (members.map Member.name)).span? x.2 <;> rfl
  have hzip : (members.zipIdx.map fun x =>
        ((memberTable members).span? x.2).map fun span => arm (x.1, span)).filterMap id
      = DisplayPlan.sparseArms name members := by
    have hplaces := zip_drop_eq_filterMap members (memberTable members).spans 0
    rw [List.drop_zero] at hplaces
    rw [DisplayPlan.sparseArms, hplaces, List.filterMap_map, List.map_filterMap]
    simp only [Option.map_map]
    rfl
  rw [sparseBody, enumerate_eq h, ok_bind, harms, ok_bind, hzip]
  rfl

/-- The code of the plan of some members is emitted without a fault. -/
theorem Plan.items_select {members : List Member} (h : members.length < wordCount)
    (runThreshold : Nat) (typeName : String) :
    (ofPlan (.select members runThreshold)).items typeName
      = .ok ((DisplayPlan.select members runThreshold).items typeName) := by
  have hruns : (runs members).length < wordCount :=
    Nat.lt_of_le_of_lt (length_runs_le members) h
  rw [DisplayPlan.select]
  split
  · rfl
  · split
    · rw [ofPlan, items]
      simp only [multiRunTables_members hruns, multiRunBody_members hruns]
      rfl
    · rw [ofPlan, items]
      simp only [sparseBody_memberTable h]
      rfl

end Checked

end EnumNames
