import EnumNames.Run
import Mathlib.Data.List.Chain

/-!
# Runs are stretches of consecutive values

Runs follow the successor of a pattern, which wraps around. Among members whose values increase, the
wrapped successor is the successor of the number, so that a run holds every number between its ends.

* `flatMap_members_runs`: the runs of a list are the list.
* `isConsecutive_of_mem_runs`: within a run, each value is one more than the value before.
* `find?_members`: a member of a run is found by the distance from the first value.
* `pairwise_runs`: between two runs at least one value is missing.
* `mem_map_low_runs`: runs begin at the values that follow no other value.
-/

namespace EnumNames

/-! ## Successors -/

/-- A larger value with the successor of a pattern is the next number, and conversely. -/
theorem Member.isFollowedBy_iff {a b : Member} (hsigned : a.constant.signed = b.constant.signed)
    (hlt : a.value < b.value) : a.isFollowedBy b ↔ b.value = a.value + 1 := by
  have ha := a.constant.bits.isLt
  have hb := b.constant.bits.isLt
  have hbits : a.isFollowedBy b
      ↔ b.constant.bits.toNat = (a.constant.bits.toNat + 1) % 18446744073709551616 := by
    rw [isFollowedBy, beq_iff_eq, ← BitVec.toNat_inj, BitVec.toNat_add]
    rfl
  rw [hbits]
  cases hs : a.constant.signed with
  | false =>
    simp only [value, Constant.value, ← hsigned, hs, Bool.false_eq_true, if_false] at hlt ⊢
    omega
  | true =>
    simp only [value, Constant.value, ← hsigned, hs, if_true, BitVec.toInt_eq_toNat_cond] at hlt ⊢
    omega

/-! ## The runs of a list -/

theorem runsFrom_ne_nil (m : Member) (ms : List Member) : runsFrom m ms ≠ [] := by
  cases ms with
  | nil => simp [runsFrom]
  | cons m' ms =>
    rw [runsFrom]
    split
    · simp
    · split <;> simp

/-- The last run opened is joined by the member before it, or that one opens a run of its own. -/
theorem runsFrom_cons (m m' : Member) (ms : List Member) :
    ∃ run runs', runsFrom m' ms = run :: runs' ∧
      runsFrom m (m' :: ms)
        = if m.isFollowedBy m' then ⟨m, run.members⟩ :: runs' else ⟨m, []⟩ :: run :: runs' := by
  obtain ⟨run, runs', h⟩ := List.exists_cons_of_ne_nil (runsFrom_ne_nil m' ms)
  refine ⟨run, runs', h, ?_⟩
  rw [runsFrom, h]

/-- All members are in the runs, in their order. -/
theorem flatMap_members_runsFrom (m : Member) (ms : List Member) :
    (runsFrom m ms).flatMap Run.members = m :: ms := by
  induction ms generalizing m with
  | nil => rfl
  | cons m' ms ih =>
    obtain ⟨run, runs', h, hm⟩ := runsFrom_cons m m' ms
    have hflat := ih m'
    rw [h, List.flatMap_cons] at hflat
    rw [hm]
    split
    · rw [List.flatMap_cons, Run.members, List.cons_append, hflat]
    · rw [List.flatMap_cons, List.flatMap_cons, hflat]
      rfl

/-- The runs of a list, one after the other, are the list. -/
theorem flatMap_members_runs (ms : List Member) : (runs ms).flatMap Run.members = ms := by
  cases ms with
  | nil => rfl
  | cons m ms => exact flatMap_members_runsFrom m ms

/-- A member of a run is one of the members. -/
theorem mem_of_mem_runs {ms : List Member} {run : Run} {m : Member} (hrun : run ∈ runs ms)
    (hm : m ∈ run.members) : m ∈ ms := by
  rw [← flatMap_members_runs ms]
  exact List.mem_flatMap.2 ⟨run, hrun, hm⟩

theorem runs_ne_nil {ms : List Member} (h : ms ≠ []) : runs ms ≠ [] := by
  cases ms with
  | nil => contradiction
  | cons m ms => exact runsFrom_ne_nil m ms

/-! ## Consecutive values -/

/-- Whether each value of a run is one more than the value before it. -/
def Run.IsConsecutive (r : Run) : Prop :=
  r.members.IsChain fun a b => b.value = a.value + 1

/-- Members whose values increase and that are read the same way. -/
structure Increasing (ms : List Member) : Prop where
  pairwise_value : ms.Pairwise fun a b => a.value < b.value
  signed_eq : ∀ a ∈ ms, ∀ b ∈ ms, a.constant.signed = b.constant.signed

/-- Without the first one, the members are still in increasing order. -/
theorem Increasing.tail {m : Member} {ms : List Member} (h : Increasing (m :: ms)) :
    Increasing ms :=
  ⟨h.pairwise_value.tail, fun a ha b hb =>
    h.signed_eq a (List.mem_cons_of_mem m ha) b (List.mem_cons_of_mem m hb)⟩

/-- Runs go up in steps of one, and the first one begins with the first member. -/
theorem isConsecutive_of_mem_runsFrom {m : Member} {ms : List Member}
    (h : Increasing (m :: ms)) : (∀ run ∈ runsFrom m ms, run.IsConsecutive) ∧
      ∀ run ∈ (runsFrom m ms).head?, run.first = m := by
  induction ms generalizing m with
  | nil => simp [runsFrom, Run.IsConsecutive, Run.members]
  | cons m' ms ih =>
    obtain ⟨run, runs', hr, hm⟩ := runsFrom_cons m m' ms
    obtain ⟨hall, hfirst⟩ := ih h.tail
    rw [hr] at hall hfirst
    -- the first run of what follows begins with the next member, so `m` joins it or stands alone
    have hrun : run.first = m' := hfirst run rfl
    have hlt : m.value < m'.value := List.rel_of_pairwise_cons h.pairwise_value (by simp)
    have hsigned := h.signed_eq m (by simp) m' (by simp)
    rw [hm]
    split
    · next hf =>
      refine ⟨fun r hmem => ?_, by simp⟩
      rcases List.mem_cons.1 hmem with rfl | hmem
      · have hc : run.IsConsecutive := hall run (by simp)
        rw [Run.IsConsecutive, Run.members] at hc ⊢
        rw [Run.members, List.isChain_cons_cons]
        exact ⟨by rw [hrun]; exact (Member.isFollowedBy_iff hsigned hlt).1 hf, hc⟩
      · exact hall r (List.mem_cons_of_mem run hmem)
    · refine ⟨fun r hmem => ?_, by simp⟩
      rcases List.mem_cons.1 hmem with rfl | hmem
      · exact List.IsChain.singleton m
      · exact hall r hmem

/-- Within a run of members in order, each value is one more than the value before it. -/
theorem isConsecutive_of_mem_runs {ms : List Member} (h : Increasing ms) {run : Run}
    (hrun : run ∈ runs ms) : run.IsConsecutive := by
  cases ms with
  | nil => simp [runs] at hrun
  | cons m ms => exact (isConsecutive_of_mem_runsFrom h).1 run hrun

/-! ## Finding a value in a run -/

/-- In steps of one, the distance from the first value is the place of a value. -/
theorem find?_of_isChain (m : Member) (ms : List Member)
    (h : (m :: ms).IsChain fun a b => b.value = a.value + 1) (v : Int) :
    (m :: ms).find? (·.value = v)
      = if m.value ≤ v then (m :: ms)[(v - m.value).toNat]? else none := by
  induction ms generalizing m with
  | nil =>
    by_cases hv : m.value = v
    · subst hv
      simp
    · rw [List.find?_cons_of_neg (by simpa using hv)]
      split
      · rw [show (v - m.value).toNat = (v - m.value).toNat - 1 + 1 by omega]
        rfl
      · rfl
  | cons m' ms ih =>
    rw [List.isChain_cons_cons] at h
    by_cases hv : m.value = v
    · subst hv
      simp
    · rw [List.find?_cons_of_neg (by simpa using hv), ih m' h.2]
      by_cases hle : m.value ≤ v
      · -- counted from the value before, the place is one more
        rw [if_pos (by omega), if_pos hle,
          show (v - m.value).toNat = (v - m'.value).toNat + 1 by omega, List.getElem?_cons_succ]
      · rw [if_neg (by omega), if_neg hle]

namespace Run

variable {r : Run}

theorem size_eq (r : Run) : r.size = r.rest.length + 1 := by
  rw [size, members, List.length_cons]

/-- The greatest value of a run is as far from the least one as the run has members. -/
theorem IsConsecutive.high_eq (h : r.IsConsecutive) : r.high = r.low + r.rest.length := by
  obtain ⟨m, ms⟩ := r
  simp only [IsConsecutive, members, high, low, last] at h ⊢
  induction ms generalizing m with
  | nil => simp
  | cons m' ms ih =>
    rw [List.isChain_cons_cons] at h
    rw [List.getLastD_cons, ih m' h.2, h.1, List.length_cons]
    omega

/-- A value is found in a run by its distance from the first one. -/
theorem IsConsecutive.find?_members (h : r.IsConsecutive) (v : Int) :
    r.members.find? (·.value = v)
      = if r.low ≤ v then r.members[(v - r.low).toNat]? else none :=
  find?_of_isChain r.first r.rest h v

/-- A run holds all values from the least to the greatest one. -/
theorem IsConsecutive.exists_mem_iff (h : r.IsConsecutive) (v : Int) :
    (∃ m ∈ r.members, m.value = v) ↔ r.low ≤ v ∧ v ≤ r.high := by
  have hfound : (∃ m ∈ r.members, m.value = v) ↔ (r.members.find? (·.value = v)).isSome := by
    simp [List.find?_isSome]
  have hlength : r.members.length = r.rest.length + 1 := r.size_eq
  rw [hfound, h.find?_members, h.high_eq]
  by_cases hlow : r.low ≤ v
  · have hindex : (r.members[(v - r.low).toNat]?).isSome ↔ (v - r.low).toNat < r.members.length :=
      by simp
    rw [if_pos hlow, hindex, hlength]
    omega
  · rw [if_neg hlow]
    exact iff_of_false nofun fun hbetween => hlow hbetween.1

theorem IsConsecutive.low_le_high (h : r.IsConsecutive) : r.low ≤ r.high := by
  rw [h.high_eq]
  omega

/-- A member before the first one leaves the greatest value as it is. -/
theorem high_cons (m : Member) (r : Run) : (Run.mk m r.members).high = r.high := by
  rw [high, last, members, List.getLastD_cons]
  rfl

end Run

/-! ## Values between runs -/

variable {ms : List Member}

/-- No run begins below the first member. -/
theorem value_le_low_of_mem_runsFrom {m : Member} (h : Increasing (m :: ms)) {run : Run}
    (hrun : run ∈ runsFrom m ms) : m.value ≤ run.low := by
  have hruns : run ∈ runs (m :: ms) := hrun
  have hmem : run.first ∈ m :: ms := mem_of_mem_runs hruns List.mem_cons_self
  rcases List.mem_cons.1 hmem with heq | hmem
  · exact Int.le_of_eq (congrArg Member.value heq.symm)
  · exact Int.le_of_lt (List.rel_of_pairwise_cons h.pairwise_value hmem)

/-- Between two runs there is a gap. -/
theorem pairwise_runsFrom {m : Member} (h : Increasing (m :: ms)) :
    (runsFrom m ms).Pairwise fun r r' => r.high + 1 < r'.low := by
  induction ms generalizing m with
  | nil => exact List.pairwise_singleton _ _
  | cons m' ms ih =>
    obtain ⟨run, runs', hr, hm⟩ := runsFrom_cons m m' ms
    have hrest := ih h.tail
    have hlow : ∀ r ∈ runsFrom m' ms, m'.value ≤ r.low := fun r =>
      value_le_low_of_mem_runsFrom h.tail
    have hlt : m.value < m'.value := List.rel_of_pairwise_cons h.pairwise_value (by simp)
    have hsigned := h.signed_eq m (by simp) m' (by simp)
    rw [hr] at hrest hlow
    rw [hm]
    split
    · -- the run that is joined ends where it ended
      refine List.Pairwise.cons (fun r hmem => ?_) hrest.tail
      rw [Run.high_cons]
      exact List.rel_of_pairwise_cons hrest hmem
    · next hf =>
      -- a value is missing between the new run and the first one of the others
      refine List.Pairwise.cons (fun r hmem => ?_) hrest
      have hne : m'.value ≠ m.value + 1 := mt (Member.isFollowedBy_iff hsigned hlt).2 hf
      have hhigh : (Run.mk m []).high = m.value := rfl
      have hle := hlow r hmem
      omega

/-- Between two runs of members in order at least one value is missing. -/
theorem pairwise_runs (h : Increasing ms) :
    (runs ms).Pairwise fun r r' => r.high + 1 < r'.low := by
  cases ms with
  | nil => exact List.Pairwise.nil
  | cons m ms => exact pairwise_runsFrom h

/-- The values of members in order are those between the ends of their runs. -/
theorem exists_mem_iff_exists_runs (h : Increasing ms) (v : Int) :
    (∃ m ∈ ms, m.value = v) ↔ ∃ run ∈ runs ms, run.low ≤ v ∧ v ≤ run.high := by
  constructor
  · rintro ⟨m, hm, hv⟩
    rw [← flatMap_members_runs ms] at hm
    obtain ⟨run, hrun, hm⟩ := List.mem_flatMap.1 hm
    exact ⟨run, hrun, ((isConsecutive_of_mem_runs h hrun).exists_mem_iff v).1 ⟨m, hm, hv⟩⟩
  · rintro ⟨run, hrun, hv⟩
    obtain ⟨m, hm, hv⟩ := ((isConsecutive_of_mem_runs h hrun).exists_mem_iff v).2 hv
    exact ⟨m, mem_of_mem_runs hrun hm, hv⟩

/-- Whether at least one value is missing between two runs. -/
def Run.Apart (r r' : Run) : Prop :=
  r.high + 1 < r'.low ∨ r'.high + 1 < r.low

instance : Std.Symm Run.Apart :=
  ⟨fun _ _ => Or.symm⟩

/-- Different runs lie apart. -/
theorem apart_of_mem_runs (h : Increasing ms) {r r' : Run} (hr : r ∈ runs ms)
    (hr' : r' ∈ runs ms) (hne : r ≠ r') : r.Apart r' := by
  have hpairs : (runs ms).Pairwise Run.Apart := (pairwise_runs h).imp Or.inl
  exact hpairs.forall hr hr' hne

/-- Runs begin at the values that follow no other value. -/
theorem mem_map_low_runs (h : Increasing ms) (v : Int) :
    v ∈ (runs ms).map Run.low ↔ (∃ m ∈ ms, m.value = v) ∧ ¬ ∃ m ∈ ms, m.value = v - 1 := by
  have hle : ∀ run ∈ runs ms, run.low ≤ run.high := fun run hrun =>
    (isConsecutive_of_mem_runs h hrun).low_le_high
  rw [List.mem_map, exists_mem_iff_exists_runs h, exists_mem_iff_exists_runs h]
  constructor
  · rintro ⟨run, hrun, rfl⟩
    refine ⟨⟨run, hrun, Int.le_refl _, hle run hrun⟩, ?_⟩
    rintro ⟨run', hrun', hlow, hhigh⟩
    have hrun_le := hle run hrun
    -- the value before would be in a run that is not apart from this one
    have heq : run = run' := by
      by_contra hne
      rcases apart_of_mem_runs h hrun hrun' hne with hapart | hapart <;> omega
    rw [heq] at hlow
    omega
  · rintro ⟨⟨run, hrun, hlow, hhigh⟩, hbefore⟩
    refine ⟨run, hrun, ?_⟩
    by_contra hne
    exact hbefore ⟨run, hrun, by omega, by omega⟩

/-- No two runs begin at the same value. -/
theorem nodup_map_low_runs (h : Increasing ms) : ((runs ms).map Run.low).Nodup := by
  rw [List.Nodup, List.pairwise_map]
  refine (pairwise_runs h).imp_of_mem fun {r r'} hr _ hlt => ?_
  have := (isConsecutive_of_mem_runs h hr).low_le_high
  omega

end EnumNames
