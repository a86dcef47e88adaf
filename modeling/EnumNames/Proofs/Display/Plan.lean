import EnumNames.Display.Plan
import EnumNames.Proofs.MemberSet
import EnumNames.Proofs.NameTable
import EnumNames.Proofs.Run

/-!
# Display plans find the name declared first

Each of the three shapes finds the member with a value: by its distance from the first value of a
run, by the run in whose range it lies, or by narrowing down the members in order.

* `halve_spec`: narrowing ends at the last place that is not greater.
* `DisplayPlan.name?_select`: a plan finds what a search through the members finds.
* `Enumeration.text_select`: the text shown for a number in terms of the declared constants.
-/

namespace EnumNames

/-! ## Narrowing down -/

/-- Narrowing ends at the last place that is not greater, or at the first place of all. -/
theorem halve_spec (greater : Nat → Bool) (base size : Nat) (hsize : 0 < size)
    (hmono : ∀ i j, i ≤ j → greater i → greater j) :
    base ≤ halve greater base size ∧ halve greater base size < base + size
      ∧ (halve greater base size = base ∨ greater (halve greater base size) = false)
      ∧ ∀ i, halve greater base size < i → i < base + size → greater i := by
  fun_induction halve greater base size with
  | case1 base size hle => exact ⟨by omega, by omega, .inl rfl, fun i _ _ => by omega⟩
  | case2 base size hle half ih =>
    have hhalf : half = size / 2 := rfl
    obtain ⟨hlow, hhigh, hfound, hafter⟩ := ih (by omega)
    by_cases hg : greater (base + half)
    · simp only [hg, if_true, dite_true] at hlow hhigh hfound hafter ⊢
      refine ⟨hlow, by omega, hfound, fun i hi _ => ?_⟩
      by_cases hlt : i < base + (size - half)
      · exact hafter i hi hlt
      · exact hmono (base + half) i (by omega) hg
    · rw [Bool.not_eq_true] at hg
      simp only [hg, Bool.false_eq_true, if_false, dite_false] at hlow hhigh hfound hafter ⊢
      refine ⟨by omega, by omega, .inr ?_, fun i hi _ => hafter i hi (by omega)⟩
      rcases hfound with heq | hfound
      · rw [heq]
        exact hg
      · exact hfound

/-! ## Members in order -/

namespace Increasing

variable {ms : List Member}

/-- Later members have greater values. -/
theorem lt_of_lt (h : Increasing ms) {i j : Nat} {a b : Member} (ha : ms[i]? = some a)
    (hb : ms[j]? = some b) (hij : i < j) : a.value < b.value := by
  obtain ⟨hi, rfl⟩ := List.getElem?_eq_some_iff.1 ha
  obtain ⟨hj, rfl⟩ := List.getElem?_eq_some_iff.1 hb
  exact List.pairwise_iff_getElem.1 h.pairwise_value i j hi hj hij

end Increasing

/-- Whether place `i` holds a greater value than `v`, or none. -/
def isBeyond (ms : List Member) (v : Int) (i : Nat) : Bool :=
  match ms[i]? with
  | some m => v < m.value
  | none => true

/-- The search by halving compares the value with the member that it narrows down to. -/
theorem findMember?_toArray (ms : List Member) (v : Int) :
    findMember? ms.toArray v
      = match ms[halve (isBeyond ms v) 0 ms.length]? with
        | some m => if m.value = v then some (halve (isBeyond ms v) 0 ms.length) else none
        | none => none := by
  simp only [findMember?, List.getElem?_toArray, List.size_toArray]
  rfl

theorem isBeyond_of_getElem? {ms : List Member} {v : Int} {i : Nat} {m : Member}
    (h : ms[i]? = some m) : isBeyond ms v i = decide (v < m.value) := by
  rw [isBeyond, h]

namespace Increasing

variable {ms : List Member}

/-- Past the first member beyond a value, all members are beyond it. -/
theorem isBeyond_mono (h : Increasing ms) (v : Int) (i j : Nat) (hij : i ≤ j)
    (hi : isBeyond ms v i) : isBeyond ms v j := by
  cases hj : ms[j]? with
  | none => rw [isBeyond, hj]
  | some b =>
    rcases Nat.lt_or_eq_of_le hij with hlt | rfl
    · have hlen : i < ms.length := by
        have := (List.getElem?_eq_some_iff.1 hj).1
        omega
      have ha := List.getElem?_eq_getElem hlen
      have hab := h.lt_of_lt ha hj hlt
      rw [isBeyond_of_getElem? ha, decide_eq_true_eq] at hi
      rw [isBeyond_of_getElem? hj, decide_eq_true_eq]
      omega
    · exact hi

/-- The search among members in order ends at the place of the value. -/
theorem halve_isBeyond (h : Increasing ms) {i : Nat} {m : Member} (hm : ms[i]? = some m) :
    halve (isBeyond ms m.value) 0 ms.length = i := by
  have hlen : i < ms.length := (List.getElem?_eq_some_iff.1 hm).1
  obtain ⟨-, hhigh, hfound, hafter⟩ :=
    halve_spec (isBeyond ms m.value) 0 ms.length (by omega) (h.isBeyond_mono m.value)
  generalize halve (isBeyond ms m.value) 0 ms.length = r at hhigh hfound hafter
  rcases Nat.lt_trichotomy r i with hlt | heq | hgt
  · -- the place of the value would be beyond the value
    have hi := hafter i hlt (by omega)
    rw [isBeyond_of_getElem? hm] at hi
    simp at hi
  · exact heq
  · -- the last place that is not beyond would hold a greater value
    have hr : ms[r]? = some ms[r] := List.getElem?_eq_getElem (by omega)
    have hlt := h.lt_of_lt hm hr hgt
    rcases hfound with hzero | hfound
    · omega
    · rw [isBeyond_of_getElem? hr, decide_eq_false_iff_not] at hfound
      contradiction

/-- A member is found at its place. -/
theorem findMember?_of_getElem? (h : Increasing ms) {i : Nat} {m : Member}
    (hm : ms[i]? = some m) : findMember? ms.toArray m.value = some i := by
  rw [findMember?_toArray, h.halve_isBeyond hm, hm]
  simp

/-- The search among members in order finds what a search through all of them finds. -/
theorem getElem?_findMember? (h : Increasing ms) (v : Int) :
    (findMember? ms.toArray v).bind (ms[·]?) = ms.find? (·.value = v) := by
  cases hf : ms.find? (·.value = v) with
  | some m =>
    have hv : m.value = v := by simpa using List.find?_some hf
    subst hv
    obtain ⟨i, hi⟩ := List.mem_iff_getElem?.1 (List.mem_of_find?_eq_some hf)
    rw [h.findMember?_of_getElem? hi, Option.bind_some, hi]
  | none =>
    rw [findMember?_toArray]
    cases hm : ms[halve (isBeyond ms v) 0 ms.length]? with
    | none => rfl
    | some m =>
      have hv := List.find?_eq_none.1 hf m (List.mem_of_getElem? hm)
      rw [decide_eq_true_eq] at hv
      show Option.bind (if m.value = v then _ else _) _ = none
      rw [if_neg hv, Option.bind_none]

end Increasing

/-! ## Plans -/

theorem findSome?_congr {α β : Type} {f g : α → Option β} {l : List α}
    (h : ∀ a ∈ l, f a = g a) : l.findSome? f = l.findSome? g := by
  induction l with
  | nil => rfl
  | cons a l ih =>
    rw [List.findSome?_cons, List.findSome?_cons, h a (by simp),
      ih fun b hb => h b (List.mem_cons_of_mem a hb)]

theorem getElem?_names (r : Run) (i : Nat) : r.names[i]? = r.members[i]?.map Member.name := by
  rw [Run.names, List.getElem?_map]

namespace DisplayPlan

/-- In a run, the distance from its lowest value is the place of a name. -/
theorem runName?_eq (run : Run) (v : Int) :
    runName? run v = run.members[(v - run.low).toNat]?.map Member.name := by
  rw [runName?, Run.table, NameTable.get?_ofNames, getElem?_names]

/-- The only run finds the member with a value. -/
theorem name?_oneRun {run : Run} (h : run.IsConsecutive) (v : Int) :
    (oneRun run).name? v = (run.members.find? (·.value = v)).map Member.name := by
  rw [name?, h.find?_members]
  by_cases hlow : v < run.low
  · rw [if_pos hlow, if_neg (by omega)]
    rfl
  · rw [if_neg hlow, if_pos (by omega), runName?_eq]

/-- A run is asked for the values between its ends only; it has no others. -/
theorem rangeName?_eq {run : Run} (h : run.IsConsecutive) (v : Int) :
    (if run.low ≤ v ∧ v ≤ run.high then runName? run v else none)
      = (run.members.find? (·.value = v)).map Member.name := by
  rw [h.find?_members, runName?_eq, h.high_eq]
  by_cases hlow : run.low ≤ v
  · rw [if_pos hlow]
    by_cases hhigh : v ≤ run.low + run.rest.length
    · rw [if_pos ⟨hlow, hhigh⟩]
    · rw [if_neg (by omega), List.getElem?_eq_none]
      · rfl
      · rw [Run.members, List.length_cons]
        omega
  · rw [if_neg hlow, if_neg (by omega)]
    rfl

/-- The first run in whose range a value lies finds the member with it. -/
theorem name?_multiRun {runs : List Run} (h : ∀ run ∈ runs, run.IsConsecutive) (v : Int) :
    (multiRun runs).name? v
      = ((runs.flatMap Run.members).find? (·.value = v)).map Member.name := by
  rw [name?, List.find?_flatMap, List.map_findSome?]
  refine findSome?_congr fun run hrun => ?_
  exact rangeName?_eq (h run hrun) v

/-- The search among all members finds the member with a value. -/
theorem name?_sparseMap {ms : List Member} (h : Increasing ms) (v : Int) :
    (sparseMap ms).name? v = (ms.find? (·.value = v)).map Member.name := by
  rw [name?, ← h.getElem?_findMember?, Option.map_bind]
  simp only [memberTable, NameTable.get?_ofNames, List.getElem?_map]
  rfl

/-- Whatever its shape, a plan finds the member with a value. -/
theorem name?_select {ms : List Member} (h : Increasing ms) (runThreshold : Nat) (v : Int) :
    (select ms runThreshold).name? v = (ms.find? (·.value = v)).map Member.name := by
  have hruns : ∀ run ∈ runs ms, run.IsConsecutive := fun run => isConsecutive_of_mem_runs h
  have hflat := flatMap_members_runs ms
  rw [select]
  split
  · next run hrun =>
    rw [hrun] at hruns hflat
    rw [List.flatMap_singleton] at hflat
    rw [name?_oneRun (hruns run (by simp)), hflat]
  · split
    · rw [name?_multiRun hruns, hflat]
    · exact name?_sparseMap h v

end DisplayPlan

/-! ## Enumerations -/

namespace Enumeration

variable {e : Enumeration} {kind : Kind}

/-- The members of an enumeration that fits its kind are in increasing order. -/
theorem Fits.increasing (h : e.Fits kind) : Increasing e.distinctMembers :=
  ⟨h.isUniform.pairwise_distinctMembers, fun _ ha _ hb =>
    h.isUniform _ (constant_mem_of_mem_declared (mem_declared_of_mem_distinctMembers ha)) _
      (constant_mem_of_mem_declared (mem_declared_of_mem_distinctMembers hb))⟩

/-- A member stands for the first constant of its value. -/
theorem Fits.map_constant_find? (h : e.Fits kind) (v : Int) :
    (e.distinctMembers.find? (·.value = v)).map Member.constant
      = e.constants.find? (·.value = v) := by
  rw [h.isUniform.find?_distinctMembers, ← map_constant_declared, List.find?_map]
  rfl

/-- A number is shown by the name of the constant declared first with it, and by the type name with
the number in parentheses if no constant has it, whatever shape the plan has. -/
theorem text_select (h : e.Fits kind) (hne : e.constants ≠ []) (runThreshold : Nat)
    (typeName : String) (v : Int) :
    ∃ set, e.memberSet = .ok set
      ∧ (DisplayPlan.select set.members runThreshold).text typeName v
        = match e.constants.find? (·.value = v) with
          | some c => c.name
          | none => typeName ++ "(" ++ toString v ++ ")" := by
  refine ⟨_, h.memberSet_eq hne, ?_⟩
  rw [DisplayPlan.text, DisplayPlan.name?_select h.increasing, ← h.map_constant_find?]
  cases e.distinctMembers.find? (·.value = v) with
  | none => rfl
  | some m => rfl

/-- Zero is declared twice; with three runs, the shape depends on the threshold. -/
theorem text_select_gauge :
    gauge.Fits .i64 ∧ gauge.constants ≠ []
      ∧ (∃ set, gauge.memberSet = .ok set
          ∧ (DisplayPlan.select set.members 3).text "Gauge" 0 = "Zero")
      ∧ ∃ set, gauge.memberSet = .ok set
          ∧ (DisplayPlan.select set.members 2).text "Gauge" (-2) = "Gauge(-2)" :=
  ⟨fits_gauge, by decide, text_select fits_gauge (by decide) 3 "Gauge" 0,
    text_select fits_gauge (by decide) 2 "Gauge" (-2)⟩

end Enumeration

end EnumNames
