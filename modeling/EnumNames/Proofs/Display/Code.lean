import EnumNames.Display.Code
import EnumNames.Proofs.Code.Eval
import EnumNames.Proofs.Display.Plan

/-!
# The code of display plans

Run for a value of the kind, the code of a display plan shows what the plan says, whatever the shape
of the plan.

* `run_oneRunBody`, `runBranches_tests`, `run_sparseBody`: what the functions of the three shapes
  answer.
-/

namespace EnumNames.DisplayPlan

open Code

/-! ## Numbers and the runs -/

section Shape

variable {f : Frame} {env : Env} {kind : Kind} {typeName : String} {v low : Int}

/-- The difference of two values of a kind is a number of 128 bits. -/
theorem eval?_offsetFrom {e : Expr} (he : e.eval? f env = some (.number (.ofKind kind) v))
    (hv : kind.contains v) (hlow : kind.contains low) :
    (offsetFrom low e).eval? f env = some (.number .i128 (v - low)) := by
  have hv' := bounds_of_contains hv
  have hlow' := bounds_of_contains hlow
  rw [offsetFrom, eval?_binary_int (by decide)
    (eval?_cast he (IntType.contains_i128.2 (by omega))) (IntType.contains_i128.2 (by omega))]
  exact Val.number?_eq_some (IntType.contains_i128.2 (by omega))

/-- What is shown for a number without a name is the type with the number. -/
theorem answer?_fallback {e : Expr} {type : IntType} (hopen : '\x7b' ∉ typeName.toList)
    (hclose : '\x7d' ∉ typeName.toList) (he : e.eval? f env = some (.number type v)) :
    (fallback typeName e).answer? f env
      = some (.shown (typeName ++ "(" ++ toString v ++ ")")) := by
  rw [fallback, Expr.answer?, he]
  simp only [fill?_fallback hopen hclose, Option.map_some]

/-- A name that has been found is written. -/
theorem runStmts_writeName (f : Frame) (s : String) (env : Env) :
    runStmts f [.result (.writeText (.var "name"))] (⟨"name", false, .text s⟩ :: env)
      = some (.result (.shown s)) :=
  runStmts_result (answer?_writeText (eval?_var (value?_cons_self "name" false (.text s) env)))

/-! ## One run -/

/-- The function for one run shows what the plan says. -/
theorem run_oneRunBody {run : Run} {name index : String}
    (hreceiver : f.receiver = some (.number (.ofKind kind) v))
    (hblob : f.item? name = some (.blob name run.table.blob))
    (hindex : f.item? index = some (.offsets index run.table.width run.table.offsets))
    (hopen : '\x7b' ∉ typeName.toList) (hclose : '\x7d' ∉ typeName.toList)
    (hv : kind.contains v) (hlow : kind.contains run.low)
    (hsize : NameTable.byteCount run.names < 0x100000000)
    (hlen : run.names.length + 1 < 0x10000000000000000) :
    (runStmts f (oneRunBody typeName name index run.low) []).bind Flow.answer?
      = some (.shown ((oneRun run).text typeName v)) := by
  have hv' := bounds_of_contains hv
  have hlow' := bounds_of_contains hlow
  -- the distance is the same, whether or not zero is subtracted
  have hidx : (if run.low = 0 then Expr.cast .receiver .i128
      else offsetFrom run.low .receiver).eval? f [] = some (.number .i128 (v - run.low)) := by
    have he := eval?_receiver hreceiver []
    split
    · next hzero =>
      rw [hzero, Int.sub_zero]
      exact eval?_cast he (IntType.contains_i128.2 (by omega))
    · exact eval?_offsetFrom he hv hlow
  generalize henv : [(⟨"idx", false, .number .i128 (v - run.low)⟩ : Cell)] = env
  have hvar : (Expr.var "idx").eval? f env = some (.number .i128 (v - run.low)) := by
    rw [← henv]
    exact eval?_var (value?_cons_self _ _ _ _)
  have hcount : (Expr.cast (.paren (.binary .sub (.length index) (.int 1))) .i128).eval? f env
      = some (.number .i128 run.names.length) := by
    have hsub : (Expr.paren (.binary .sub (.length index) (.int 1))).eval? f env
        = some (.number .usize run.names.length) := by
      rw [Expr.eval?, eval?_binary_int (by decide) (eval?_length hindex hlen env) (by decide)]
      rw [BinOp.result?, show ((run.names.length + 1 : Nat) : Int) - 1 = run.names.length by omega]
      exact Val.number?_eq_some (IntType.contains_usize.2 (by omega))
    exact eval?_cast hsub (IntType.contains_i128.2 (by omega))
  have hbefore : (Expr.binary .less (.var "idx") (.int 0)).eval? f env
      = some (.truth (v - run.low < 0)) :=
    eval?_binary_int (by decide) hvar (by decide)
  have hafter : (Expr.binary .atLeast (.var "idx")
      (.cast (.paren (.binary .sub (.length index) (.int 1))) .i128)).eval? f env
      = some (.truth (v - run.low ≥ run.names.length)) :=
    eval?_binary (by decide) hvar hcount
  have htest := truth?_or hbefore hafter
  rw [oneRunBody, runStmts_bind hidx, henv]
  have hname : (oneRun run).name? v = if v < run.low then none
      else run.names[(v - run.low).toNat]? := by
    rw [name?, runName?, Run.table, NameTable.get?_ofNames]
  by_cases hout : v - run.low < 0 ∨ v - run.low ≥ run.names.length
  · have hnone : (oneRun run).name? v = none := by
      rw [hname]
      split
      · rfl
      · exact List.getElem?_eq_none (by omega)
    rw [runStmts_when_leave (htest.trans (by rw [decide_eq_true hout]))
      (runStmts_ret (answer?_fallback hopen hclose (eval?_receiver hreceiver env))), text, hnone]
    rfl
  · have hplace : (v - run.low).toNat < run.names.length := by omega
    have hsome : (oneRun run).name? v = some run.names[(v - run.low).toNat] := by
      rw [hname, if_neg (by omega), List.getElem?_eq_getElem hplace]
    have hcast : (Expr.cast (.var "idx") .usize).eval? f env
        = some (.number .usize (v - run.low).toNat) := by
      rw [Int.toNat_of_nonneg (by omega)]
      exact eval?_cast hvar (IntType.contains_usize.2 (by omega))
    have hslice := eval?_tableSlice hblob hindex hsize
      (value?_cons_self "idx" false (.number .usize (v - run.low).toNat) env) hplace (by omega)
    rw [runStmts_when_false (htest.trans (by rw [decide_eq_false hout])), runStmts_bind hcast,
      runStmts_result (answer?_writeText hslice), text, hsome]
    rfl

/-! ## Several runs -/

/-- A run begins at zero if the bits of its first value are zero. -/
theorem low_of_bits {run : Run} (h : run.first.constant.bits = 0) : run.low = 0 := by
  rw [Run.low, Member.value, Constant.value, h]
  split <;> rfl

/-- What the code of run `k` relies on: the run is one of a member set of the kind, and its tables
are among the items. -/
structure HasRun (f : Frame) (kind : Kind) (typeName : String) (run : Run) (k : Nat) : Prop where
  isConsecutive : run.IsConsecutive
  signed_eq : run.first.constant.signed = kind.isSigned
  contains_low : kind.contains run.low
  contains_high : kind.contains run.high
  byteCount_lt : NameTable.byteCount run.names < 0x100000000
  length_lt : run.names.length + 1 < 0x10000000000000000
  item?_name : f.item? (itemName typeName "name" (runSuffix k))
    = some (.blob (itemName typeName "name" (runSuffix k)) run.table.blob)
  item?_index : run.isSingle = false → f.item? (itemName typeName "index" (runSuffix k))
    = some (.offsets (itemName typeName "index" (runSuffix k)) run.table.width run.table.offsets)

/-- The distance of a value in the range of a run is the place of its name. -/
theorem place_lt {run : Run} (h : run.IsConsecutive) (hmem : run.low ≤ v ∧ v ≤ run.high) :
    (v - run.low).toNat < run.names.length := by
  have hlength : run.names.length = run.rest.length + 1 := by
    rw [Run.names, List.length_map, Run.members, List.length_cons]
  rw [h.high_eq] at hmem
  omega

/-- The blob of a run of one member is its name. -/
theorem names_of_isSingle {run : Run} (h : run.isSingle) :
    run.names = [run.first.name] ∧ run.table.blob = run.first.name := by
  have hrest : run.rest = [] := List.isEmpty_iff.1 h
  have hnames : run.names = [run.first.name] := by
    rw [Run.names, Run.members, hrest]
    rfl
  refine ⟨hnames, ?_⟩
  rw [Run.table, hnames, NameTable.ofNames, String.join_cons, String.join_nil, String.append_empty]

namespace HasRun

variable {run : Run} {k : Nat}

/-- The test of a run holds just for the values between its ends. -/
theorem truth?_runTest (h : HasRun f kind typeName run k)
    (hi : env.value? "i" = some (.number (.ofKind kind) v)) (hv : kind.contains v) :
    (runTest run).truth? f env = some (decide (run.low ≤ v ∧ v ≤ run.high)) := by
  rw [runTest]
  split
  · next hsingle =>
    have hend : run.high = run.low := by
      rw [Run.high, Run.last, List.isEmpty_iff.1 hsingle]
      rfl
    have htest : (Expr.binary .equal (.var "i") (.int run.low)).eval? f env
        = some (.truth (v = run.low)) :=
      eval?_binary_int (by decide) (eval?_var hi) h.contains_low
    have hiff : v = run.low ↔ run.low ≤ v ∧ v ≤ run.high := by omega
    rw [truth?_of_eval? htest, decide_eq_decide.2 hiff]
  · split
    · next hzero =>
      have hle : run.low ≤ v := by
        have hunsigned : kind.isSigned = false := by
          rw [← h.signed_eq, ← Bool.not_eq_true']
          exact hzero.2
        rw [low_of_bits hzero.1]
        exact ((IntType.contains_unsigned hunsigned).1 hv).1
      have htest : (Expr.binary .atMost (.var "i") (.int run.high)).eval? f env
          = some (.truth (v ≤ run.high)) :=
        eval?_binary_int (by decide) (eval?_var hi) h.contains_high
      have hiff : v ≤ run.high ↔ run.low ≤ v ∧ v ≤ run.high := by omega
      rw [truth?_of_eval? htest, decide_eq_decide.2 hiff]
    · have htest : (Expr.within run.low run.high "i").eval? f env
          = some (.truth (run.low ≤ v ∧ v ≤ run.high)) := by
        have hends : (IntType.ofKind kind).contains run.low
            && (IntType.ofKind kind).contains run.high := by
          rw [Bool.and_eq_true]
          exact ⟨h.contains_low, h.contains_high⟩
        rw [Expr.eval?, hi]
        simp only [hends, if_true, Bool.decide_and]
      exact truth?_of_eval? htest

/-- The distance from the first value is a place, whether or not zero is subtracted. -/
theorem eval?_distance (h : HasRun f kind typeName run k)
    (hi : env.value? "i" = some (.number (.ofKind kind) v)) (hv : kind.contains v)
    (hmem : run.low ≤ v ∧ v ≤ run.high) :
    (if run.first.constant.bits = 0 then Expr.cast (.var "i") .usize
      else .cast (.paren (offsetFrom run.low (.var "i"))) .usize).eval? f env
        = some (.number .usize (v - run.low).toNat) := by
  have hplace := place_lt h.isConsecutive hmem
  have hlen := h.length_lt
  have hfits : IntType.usize.contains (v - run.low) := by
    rw [IntType.contains_usize]
    omega
  rw [Int.toNat_of_nonneg (by omega)]
  split
  · next hzero =>
    rw [low_of_bits hzero, Int.sub_zero] at hfits ⊢
    exact eval?_cast (eval?_var hi) hfits
  · have hoffset : (Expr.paren (offsetFrom run.low (.var "i"))).eval? f env
        = some (.number .i128 (v - run.low)) :=
      eval?_offsetFrom (eval?_var hi) hv h.contains_low
    exact eval?_cast hoffset hfits

/-- In the range of a run, its block comes to the name of the value. -/
theorem runStmts_runBlock (h : HasRun f kind typeName run k)
    (hi : env.value? "i" = some (.number (.ofKind kind) v)) (hv : kind.contains v)
    (hfree : env.value? (itemName typeName "name" (runSuffix k)) = none)
    (hmem : run.low ≤ v ∧ v ≤ run.high) :
    ∃ s, runName? run v = some s
      ∧ runStmts f (runBlock typeName run k) env = some (.result (.value (.text s))) := by
  have hplace := place_lt h.isConsecutive hmem
  refine ⟨run.names[(v - run.low).toNat], ?_, ?_⟩
  · rw [runName?, Run.table, NameTable.get?_ofNames, List.getElem?_eq_getElem hplace]
  · rw [runBlock]
    split
    · next hsingle =>
      -- the table of one name is the name
      obtain ⟨hnames, hblob⟩ := names_of_isSingle hsingle
      have hname : run.table.blob = run.names[(v - run.low).toNat] := by
        rw [hblob]
        simp only [hnames, List.getElem_singleton]
      have hvar : (Expr.var (itemName typeName "name" (runSuffix k))).eval? f env
          = some (.text run.names[(v - run.low).toNat]) := by
        rw [Expr.eval?, hfree, Frame.text?, h.item?_name, hname]
        rfl
      exact runStmts_result (answer?_of_eval? hvar)
    · next hsingle =>
      have hslice := eval?_tableSlice h.item?_name (h.item?_index (Bool.eq_false_iff.2 hsingle))
        h.byteCount_lt (value?_cons_self "i" false (.number .usize (v - run.low).toNat) env) hplace
        (Nat.lt_of_succ_lt h.length_lt)
      rw [runStmts_bind (h.eval?_distance hi hv hmem)]
      exact runStmts_result (answer?_of_eval? hslice)

end HasRun

/-- The tests are made in turn, and the block of the first that holds gives the name. -/
theorem runBranches_tests {tests : List (Run × Nat)}
    (h : ∀ p ∈ tests, HasRun f kind typeName p.1 p.2)
    (hi : env.value? "i" = some (.number (.ofKind kind) v)) (hv : kind.contains v)
    (hfree : ∀ k, env.value? (itemName typeName "name" (runSuffix k)) = none)
    (other : Env → Option Flow) :
    runBranches f (tests.map fun (run, k) => (runTest run, runBlock typeName run k)) other env
      = match tests.findSome? fun p =>
          if p.1.low ≤ v ∧ v ≤ p.1.high then runName? p.1 v else none with
        | some s => some (.result (.value (.text s)))
        | none => other env := by
  induction tests with
  | nil => rw [List.map_nil, runBranches, List.findSome?_nil]
  | cons p tests ih =>
    have hp := h p List.mem_cons_self
    rw [List.map_cons, runBranches, hp.truth?_runTest hi hv, List.findSome?_cons]
    by_cases hmem : p.1.low ≤ v ∧ v ≤ p.1.high
    · obtain ⟨s, hname, hrun⟩ := hp.runStmts_runBlock hi hv (hfree p.2) hmem
      simp only [hmem, decide_true, and_self, if_true, hname, hrun]
    · simp only [hmem, decide_false, if_false]
      exact ih fun q hq => h q (List.mem_cons_of_mem p hq)

/-- The function for several runs shows what the plan says. -/
theorem run_multiRunBody {runs : List Run}
    (hreceiver : f.receiver = some (.number (.ofKind kind) v))
    (h : ∀ p ∈ runs.zipIdx, HasRun f kind typeName p.1 p.2)
    (hopen : '\x7b' ∉ typeName.toList) (hclose : '\x7d' ∉ typeName.toList)
    (hv : kind.contains v) :
    (runStmts f (multiRunBody typeName runs) []).bind Flow.answer?
      = some (.shown ((multiRun runs).text typeName v)) := by
  have hname : (multiRun runs).name? v = runs.zipIdx.findSome? fun p =>
      if p.1.low ≤ v ∧ v ≤ p.1.high then runName? p.1 v else none := by
    have hmap := List.findSome?_map (l := runs.zipIdx) (f := Prod.fst)
      (p := fun run => if run.low ≤ v ∧ v ≤ run.high then runName? run v else none)
    rw [List.zipIdx_map_fst] at hmap
    rw [name?, hmap]
    rfl
  have hi : Env.value? [⟨"i", false, .number (.ofKind kind) v⟩] "i"
      = some (.number (.ofKind kind) v) := value?_cons_self _ _ _ _
  have hfree : ∀ k, Env.value? [⟨"i", false, .number (.ofKind kind) v⟩]
      (itemName typeName "name" (runSuffix k)) = none := by
    intro k
    rw [value?_cons_of_ne (itemName_ne_of_head (x := "i") (by decide) _ _ _).symm]
    rfl
  have htests := runBranches_tests h hi hv hfree
    (runStmts f [.ret (fallback typeName (.var "i"))])
  rw [← hname] at htests
  rw [multiRunBody, runStmts_bind (eval?_receiver hreceiver []), runStmts, Stmt.run?, htests, text]
  cases (multiRun runs).name? v with
  | none =>
    rw [runStmts_ret (answer?_fallback hopen hclose (eval?_var hi))]
    rfl
  | some s =>
    simp only [Option.bind_some, Flow.named?, runStmts_writeName, Option.getD_some]
    rfl

/-! ## Scattered values -/

/-- Arm `i` has the value of member `i`, and the slice between the ends of its name. -/
theorem getElem?_sparseArms (name : String) (members : List Member) (i : Nat) :
    (sparseArms name members)[i]? = members[i]?.map fun m =>
      (m.value, .slice name (.int (NameTable.byteCount ((members.map Member.name).take i)))
        (.int (NameTable.byteCount ((members.map Member.name).take (i + 1))))) := by
  rw [sparseArms, List.getElem?_map]
  cases hm : members[i]? with
  | none =>
    have hlen := List.getElem?_eq_none_iff.1 hm
    rw [List.getElem?_eq_none]
    · rfl
    · rw [List.length_zip]
      omega
  | some m =>
    have hi : i < (members.map Member.name).length := by
      rw [List.length_map]
      exact (List.getElem?_eq_some_iff.1 hm).1
    have hspan := NameTable.span?_ofNames hi
    rw [NameTable.span?] at hspan
    rw [memberTable, (List.getElem?_zip_eq_some (z := (m, _, _))).2 ⟨hm, hspan⟩]
    rfl

theorem run_sparseBody {members : List Member} {name : String} (h : Increasing members)
    (hreceiver : f.receiver = some (.number (.ofKind kind) v))
    (hblob : f.item? name = some (.blob name (memberTable members).blob))
    (hmembers : ∀ m ∈ members, kind.contains m.value)
    (hsize : NameTable.byteCount (members.map Member.name) < 0x100000000)
    (hopen : '\x7b' ∉ typeName.toList) (hclose : '\x7d' ∉ typeName.toList) :
    (runStmts f (sparseBody typeName name members) []).bind Flow.answer?
      = some (.shown ((sparseMap members).text typeName v)) := by
  have hpatterns : (sparseArms name members).all fun arm =>
      (IntType.ofKind kind).contains arm.1 := by
    rw [List.all_eq_true]
    intro arm harm
    obtain ⟨i, hi⟩ := List.mem_iff_getElem?.1 harm
    rw [getElem?_sparseArms, Option.map_eq_some_iff] at hi
    obtain ⟨m, hm, rfl⟩ := hi
    exact hmembers m (List.mem_of_getElem? hm)
  rw [sparseBody, runStmts, Stmt.run?, eval?_receiver hreceiver]
  simp only [hpatterns, if_true]
  cases harm : (sparseArms name members).find? (·.1 == v) with
  | none =>
    -- no pattern is the value, so no member has it and the fallback is shown
    have hnone : members.find? (·.value = v) = none := by
      rw [List.find?_eq_none] at harm ⊢
      intro m hm hv
      obtain ⟨i, hi⟩ := List.mem_iff_getElem?.1 hm
      have harm' := harm _ (List.mem_of_getElem? ((getElem?_sparseArms name members i).trans
        (by rw [hi, Option.map_some])))
      rw [decide_eq_true_eq] at hv
      exact harm' (beq_iff_eq.2 hv)
    have hi := eval?_var (f := f)
      (value?_cons_self "i" false (.number (.ofKind kind) v) [])
    simp only [answer?_fallback hopen hclose hi, Option.map_some]
    rw [text, name?_sparseMap h, hnone]
    rfl
  | some arm =>
    obtain ⟨i, hi⟩ := List.mem_iff_getElem?.1 (List.mem_of_find?_eq_some harm)
    have hv := List.find?_some harm
    rw [getElem?_sparseArms, Option.map_eq_some_iff] at hi
    obtain ⟨m, hm, rfl⟩ := hi
    rw [beq_iff_eq] at hv
    -- the place of the pattern is that of the member, whose name is cut from the blob
    obtain ⟨hlen, hget⟩ := List.getElem?_eq_some_iff.1 hm
    have hsome : members.find? (·.value = v) = some m := by
      rw [← hv]
      exact Enumeration.find?_eq_some_of_mem h.pairwise_value (List.mem_of_getElem? hm)
    have hslice := eval?_spanSlice hblob hsize (by rw [List.length_map]; exact hlen) []
    rw [List.getElem_map, hget] at hslice
    simp only [hslice, Option.map_some, runStmts_writeName]
    rw [text, name?_sparseMap h, hsome]
    rfl

end Shape

/-! ## Items -/

section Items

variable {kind : Kind} {typeName : String} {v : Int}

/-- The items for one run show what the plan says. -/
theorem show?_oneRun {run : Run} (hopen : '\x7b' ∉ typeName.toList)
    (hclose : '\x7d' ∉ typeName.toList) (hv : kind.contains v) (hlow : kind.contains run.low)
    (hsize : NameTable.byteCount run.names < 0x100000000)
    (hlen : run.names.length + 1 < 0x10000000000000000) :
    show? ((oneRun run).items typeName) typeName kind v
      = some ((oneRun run).text typeName v) := by
  have hproper : areProper ((oneRun run).items typeName) := by
    rw [areProper_iff]
    constructor
    · intro item hitem
      simp only [items, Item.ofTable, List.cons_append, List.nil_append, List.mem_cons,
        List.not_mem_nil, or_false] at hitem
      rcases hitem with rfl | rfl | rfl | rfl | rfl
      · rfl
      · rfl
      · exact isProper_offsets hsize _
      · rfl
      · rfl
    · show [itemName typeName "name" "", itemName typeName "index" ""].Nodup
      simp [itemName_inj]
  have hname : Frame.item? ⟨_, typeName, some (.number (.ofKind kind) v), []⟩ _
      = some (.blob (itemName typeName "name" "") run.table.blob) :=
    Frame.item?_eq_some hproper (by simp [items, Item.ofTable]) rfl _ _ _
  have hindex : Frame.item? ⟨_, typeName, some (.number (.ofKind kind) v), []⟩ _
      = some (.offsets (itemName typeName "index" "") run.table.width run.table.offsets) :=
    Frame.item?_eq_some hproper (by simp [items, Item.ofTable]) rfl _ _ _
  refine show?_eq_some hproper ?_
    (run_oneRunBody rfl hname hindex hopen hclose hv hlow hsize hlen)
  simp [items, Item.ofTable, List.filterMap_cons, Item.displayBody?]

theorem runSuffix_inj {k k' : Nat} : runSuffix k = runSuffix k' ↔ k = k' := by
  rw [runSuffix, runSuffix, String.append_right_inj]
  constructor
  · intro h
    have hdigits : Nat.toDigits 10 k = Nat.toDigits 10 k' := by
      rw [← Nat.toList_repr, ← Nat.toList_repr]
      exact congrArg String.toList h
    rw [← Nat.ofDigitChars_ten_toDigits (n := k), hdigits, Nat.ofDigitChars_ten_toDigits]
  · rintro rfl
    rfl

/-- The tables of runs: a blob for each, and an index for each that has two members. -/
theorem mem_multiRunTables {runs : List Run} {item : Item} :
    item ∈ multiRunTables typeName runs ↔ ∃ p ∈ runs.zipIdx,
      item = .blob (itemName typeName "name" (runSuffix p.2)) p.1.table.blob
        ∨ p.1.isSingle = false ∧ item = .offsets (itemName typeName "index" (runSuffix p.2))
            p.1.table.width p.1.table.offsets := by
  rw [multiRunTables, List.mem_append, List.mem_map, List.mem_flatMap]
  constructor
  · rintro (⟨p, hp, rfl⟩ | ⟨⟨run, k⟩, hp, hitem⟩)
    · exact ⟨p, hp, .inl rfl⟩
    · refine ⟨(run, k), hp, .inr ?_⟩
      cases hsingle : run.isSingle with
      | true => simp [hsingle] at hitem
      | false => simpa [hsingle] using hitem
  · rintro ⟨⟨run, k⟩, hp, rfl | ⟨hsingle, rfl⟩⟩
    · exact .inl ⟨(run, k), hp, rfl⟩
    · refine .inr ⟨(run, k), hp, ?_⟩
      simp only [hsingle, Bool.false_eq_true, if_false, List.mem_singleton]

theorem mem_multiRun_items {runs : List Run} {item : Item}
    (h : item ∈ (multiRun runs).items typeName) :
    item = .blank ∨ item ∈ multiRunTables typeName runs
      ∨ item = .display typeName (multiRunBody typeName runs) := by
  simp only [items, List.mem_append, List.mem_cons, List.not_mem_nil, or_false] at h
  grind

/-- The tables of the runs have different names. -/
theorem nodup_multiRunTables (typeName : String) (runs : List Run) :
    ((multiRunTables typeName runs).filterMap Item.dataName?).Nodup := by
  have hpairs : runs.zipIdx.Pairwise fun p q => p.2 ≠ q.2 := by
    have hlt : (runs.zipIdx.map Prod.snd).Pairwise (· < ·) := by
      rw [List.zipIdx_map_snd]
      exact List.pairwise_lt_range'
    exact (List.pairwise_map.1 hlt).imp fun hlt => Nat.ne_of_lt hlt
  have hne : ∀ item k k', k ≠ k' → itemName typeName item (runSuffix k)
      ≠ itemName typeName item (runSuffix k') := by
    intro item k k' hk heq
    rw [itemName_inj, String.append_right_inj] at heq
    exact hk (runSuffix_inj.1 heq)
  have hblobs : (runs.zipIdx.map fun (run, k) => Item.blob
      (itemName typeName "name" (runSuffix k)) run.table.blob).filterMap Item.dataName?
      = runs.zipIdx.map fun p => itemName typeName "name" (runSuffix p.2) := by
    rw [List.filterMap_map, ← List.filterMap_eq_map]
    rfl
  have hindexes : ∀ p : Run × Nat, ∀ name ∈ (if p.1.isSingle then []
      else [Item.offsets (itemName typeName "index" (runSuffix p.2)) p.1.table.width
        p.1.table.offsets]).filterMap Item.dataName?,
      name = itemName typeName "index" (runSuffix p.2) := by
    intro p name hname
    split at hname
    · contradiction
    · exact List.mem_singleton.1 hname
  rw [multiRunTables, List.filterMap_append, hblobs, List.filterMap_flatMap, List.nodup_append]
  -- names of one word differ in the number of the run, the others in the word
  refine ⟨?_, ?_, ?_⟩
  · exact List.pairwise_map.2 (hpairs.imp fun hk => hne "name" _ _ hk)
  · refine List.pairwise_flatMap.2 ⟨fun p _ => ?_, hpairs.imp fun hk a ha b hb => ?_⟩
    · obtain ⟨run, k⟩ := p
      dsimp only
      split
      · exact List.Pairwise.nil
      · exact List.pairwise_singleton _ _
    · rw [hindexes _ a ha, hindexes _ b hb]
      exact hne "index" _ _ hk
  · intro a ha b hb
    obtain ⟨p, -, rfl⟩ := List.mem_map.1 ha
    obtain ⟨q, -, hb⟩ := List.mem_flatMap.1 hb
    rw [hindexes q b hb, Ne, itemName_inj]
    intro heq
    have := congrArg (fun s => s.toList.head?) heq
    simp at this

/-- The tables of runs have names of their own. -/
theorem areProper_multiRun {runs : List Run}
    (hsize : ∀ run ∈ runs, NameTable.byteCount run.names < 0x100000000) (typeName : String) :
    areProper ((multiRun runs).items typeName) := by
  rw [areProper_iff]
  constructor
  · intro item hitem
    rcases mem_multiRun_items hitem with rfl | htable | rfl
    · rfl
    · obtain ⟨p, hp, rfl | ⟨-, rfl⟩⟩ := mem_multiRunTables.1 htable
      · rfl
      · exact isProper_offsets (hsize p.1 (List.fst_mem_of_mem_zipIdx hp)) _
    · rfl
  · have hnames : ((multiRun runs).items typeName).filterMap Item.dataName?
        = (multiRunTables typeName runs).filterMap Item.dataName? := by
      simp [items, List.filterMap_append, List.filterMap_cons, Item.dataName?]
    rw [hnames]
    exact nodup_multiRunTables typeName runs

theorem show?_multiRun {runs : List Run} (hopen : '\x7b' ∉ typeName.toList)
    (hclose : '\x7d' ∉ typeName.toList) (hv : kind.contains v)
    (hconsecutive : ∀ run ∈ runs, run.IsConsecutive)
    (hmembers : ∀ run ∈ runs, ∀ m ∈ run.members,
      m.constant.signed = kind.isSigned ∧ kind.contains m.value)
    (hsize : ∀ run ∈ runs, NameTable.byteCount run.names < 0x100000000)
    (hlen : ∀ run ∈ runs, run.names.length + 1 < 0x10000000000000000) :
    show? ((multiRun runs).items typeName) typeName kind v
      = some ((multiRun runs).text typeName v) := by
  have hproper := areProper_multiRun hsize typeName
  have htable : ∀ item ∈ multiRunTables typeName runs,
      item ∈ (multiRun runs).items typeName := by
    intro item hitem
    simp [items, hitem]
  refine show?_eq_some hproper ?_ (run_multiRunBody rfl ?_ hopen hclose hv)
  · have hnone : (multiRunTables typeName runs).filterMap (Item.displayBody? typeName) = [] := by
      rw [List.filterMap_eq_nil_iff]
      intro item hitem
      obtain ⟨p, hp, rfl | ⟨-, rfl⟩⟩ := mem_multiRunTables.1 hitem <;> rfl
    simp [items, List.filterMap_append, List.filterMap_cons, hnone, Item.displayBody?]
  · intro p hp
    have hrun : p.1 ∈ runs := List.fst_mem_of_mem_zipIdx hp
    refine ⟨hconsecutive p.1 hrun, ?_, ?_, ?_, hsize p.1 hrun, hlen p.1 hrun, ?_, ?_⟩
    · exact (hmembers p.1 hrun p.1.first List.mem_cons_self).1
    · exact (hmembers p.1 hrun p.1.first List.mem_cons_self).2
    · exact (hmembers p.1 hrun p.1.last (List.getLastD_mem_cons ..)).2
    · exact Frame.item?_eq_some hproper
        (htable _ (mem_multiRunTables.2 ⟨p, hp, .inl rfl⟩)) rfl _ _ _
    · intro hsingle
      exact Frame.item?_eq_some hproper
        (htable _ (mem_multiRunTables.2 ⟨p, hp, .inr ⟨hsingle, rfl⟩⟩)) rfl _ _ _

theorem show?_sparseMap {members : List Member} (h : Increasing members)
    (hopen : '\x7b' ∉ typeName.toList) (hclose : '\x7d' ∉ typeName.toList)
    (hmembers : ∀ m ∈ members, kind.contains m.value)
    (hsize : NameTable.byteCount (members.map Member.name) < 0x100000000) :
    show? ((sparseMap members).items typeName) typeName kind v
      = some ((sparseMap members).text typeName v) := by
  have hproper : areProper ((sparseMap members).items typeName) := by
    rw [areProper_iff]
    constructor
    · intro item hitem
      simp only [items, List.mem_cons, List.not_mem_nil, or_false] at hitem
      rcases hitem with rfl | rfl | rfl | rfl <;> rfl
    · show [itemName typeName "name" ""].Nodup
      simp
  have hname : Frame.item? ⟨_, typeName, some (.number (.ofKind kind) v), []⟩ _
      = some (.blob (itemName typeName "name" "") (memberTable members).blob) :=
    Frame.item?_eq_some hproper (by simp [items]) rfl _ _ _
  refine show?_eq_some hproper ?_ (run_sparseBody h rfl hname hmembers hsize hopen hclose)
  simp [items, List.filterMap_cons, Item.displayBody?]

/-- A run holds some of the members in their order. -/
theorem sublist_of_mem_runs {ms : List Member} {run : Run} (h : run ∈ runs ms) :
    run.members.Sublist ms := by
  have hsub := List.sublist_flatten_of_mem (List.mem_map_of_mem (f := Run.members) h)
  rw [← List.flatMap_def, flatMap_members_runs] at hsub
  exact hsub

/-- Whatever its shape, the code of a plan shows what the plan says. -/
theorem show?_select {ms : List Member} (h : Increasing ms)
    (hmembers : ∀ m ∈ ms, m.constant.signed = kind.isSigned ∧ kind.contains m.value)
    (hsize : NameTable.byteCount (ms.map Member.name) < 0x100000000)
    (hlen : ms.length + 1 < 0x10000000000000000) (runThreshold : Nat)
    (hopen : '\x7b' ∉ typeName.toList) (hclose : '\x7d' ∉ typeName.toList)
    (hv : kind.contains v) :
    show? ((select ms runThreshold).items typeName) typeName kind v
      = some ((select ms runThreshold).text typeName v) := by
  have hsub : ∀ run ∈ runs ms, run.members.Sublist ms := fun run => sublist_of_mem_runs
  have hruns : ∀ run ∈ runs ms, run.IsConsecutive := fun run => isConsecutive_of_mem_runs h
  have hsizes : ∀ run ∈ runs ms, NameTable.byteCount run.names < 0x100000000 := fun run hrun =>
    Nat.lt_of_le_of_lt (NameTable.byteCount_le_of_sublist ((hsub run hrun).map Member.name)) hsize
  have hlens : ∀ run ∈ runs ms, run.names.length + 1 < 0x10000000000000000 := by
    intro run hrun
    have := (hsub run hrun).length_le
    rw [Run.names, List.length_map]
    omega
  have hall : ∀ run ∈ runs ms, ∀ m ∈ run.members,
      m.constant.signed = kind.isSigned ∧ kind.contains m.value :=
    fun run hrun m hm => hmembers m ((hsub run hrun).subset hm)
  rw [select]
  split
  · next run hrun =>
    rw [hrun] at hsizes hlens hall
    exact show?_oneRun hopen hclose hv (hall run (by simp) run.first (by simp [Run.members])).2
      (hsizes run (by simp)) (hlens run (by simp))
  · split
    · exact show?_multiRun hopen hclose hv hruns hall hsizes hlens
    · exact show?_sparseMap h hopen hclose (fun m hm => (hmembers m hm).2) hsize

end Items

end EnumNames.DisplayPlan

namespace EnumNames.Enumeration

open Code

variable {e : Enumeration} {kind : Kind}

/-- The members of a set are some of the constants, in another order. -/
theorem exists_sublist_distinctMembers (e : Enumeration) :
    ∃ ms, e.distinctMembers.Sublist ms ∧ (ms.map Member.constant).Perm e.constants := by
  refine ⟨e.sorted, sublist_keepFirst _, ?_⟩
  have h := (List.mergeSort_perm e.declared fun a b => a.value ≤ b.value).map Member.constant
  rw [map_constant_declared] at h
  exact h

/-- The names of members have no more bytes than those of the constants. -/
theorem byteCount_distinctMembers_le (e : Enumeration) :
    NameTable.byteCount (e.distinctMembers.map Member.name)
      ≤ NameTable.byteCount (e.constants.map Constant.name) := by
  obtain ⟨ms, hsub, hperm⟩ := e.exists_sublist_distinctMembers
  have hnames := hperm.map Constant.name
  rw [List.map_map] at hnames
  rw [← NameTable.byteCount_eq_of_perm hnames]
  exact NameTable.byteCount_le_of_sublist (hsub.map Member.name)

/-- There are no more members than constants. -/
theorem length_distinctMembers_le (e : Enumeration) :
    e.distinctMembers.length ≤ e.constants.length := by
  obtain ⟨ms, hsub, hperm⟩ := e.exists_sublist_distinctMembers
  have hlen := hperm.length_eq
  rw [List.length_map] at hlen
  exact hlen ▸ hsub.length_le

/-- The code of a plan for the members of an enumeration shows every number of its kind. -/
theorem Fits.show?_distinctMembers (h : e.Fits kind)
    (hsize : NameTable.byteCount (e.constants.map Constant.name) < 0x100000000)
    (hlen : e.constants.length + 1 < 0x10000000000000000) (runThreshold : Nat) {typeName : String}
    (hopen : '\x7b' ∉ typeName.toList) (hclose : '\x7d' ∉ typeName.toList) {v : Int}
    (hv : kind.contains v) :
    show? ((DisplayPlan.select e.distinctMembers runThreshold).items typeName) typeName kind v
      = some ((DisplayPlan.select e.distinctMembers runThreshold).text typeName v) := by
  have hbytes := byteCount_distinctMembers_le e
  have hlength := length_distinctMembers_le e
  refine DisplayPlan.show?_select h.increasing (fun m hm => ?_) (by omega) (by omega)
    runThreshold hopen hclose hv
  have hconstant := constant_mem_of_mem_declared (mem_declared_of_mem_distinctMembers hm)
  exact ⟨h.signed_eq _ hconstant, h.contains_value _ hconstant⟩

end EnumNames.Enumeration
