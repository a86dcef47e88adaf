import EnumNames.Checked.Lookup
import EnumNames.Proofs.Checked.Display
import EnumNames.Proofs.Display.Plan
import EnumNames.Proofs.Lookup.Plan

/-!
# Lookup meets no fault

The entries of a switch are in order of their hashes, so the place up to which hashes are less lies
in the list. The entries of a search have a table with a name for each of them, and the middle of
two places lies between them.

* `drop_partitionPoint`: what follows the partition point.
* `search_eq`: a search takes the steps of `bisect?`.
* `value?_select`: the value of a name.
-/

namespace EnumNames

/-! ## Partition points -/

/-- What is dropped from the front ends at the first element that does not hold. -/
theorem dropWhile_eq_drop {α : Type} {holds : α → Bool} {xs : List α} {n : Nat}
    (hbefore : ∀ i x, i < n → xs[i]? = some x → holds x)
    (hat : ∀ x, xs[n]? = some x → holds x = false) : xs.dropWhile holds = xs.drop n := by
  induction xs generalizing n with
  | nil => exact List.drop_nil.symm
  | cons x xs ih =>
    cases n with
    | zero => rw [List.dropWhile_cons, hat x rfl, List.drop_zero, if_neg Bool.false_ne_true]
    | succ n =>
      rw [List.dropWhile_cons, if_pos (hbefore 0 x (Nat.succ_pos n) rfl), List.drop_succ_cons]
      exact ih (fun i y hi => hbefore (i + 1) y (Nat.succ_lt_succ hi)) hat

/-- Whether a condition fails at a place, or the place is not in the list. -/
def failsAt {α : Type} (holds : α → Bool) (xs : List α) (i : Nat) : Bool :=
  xs[i]?.all (!holds ·)

section PartitionPoint

variable {α : Type} {holds : α → Bool} {xs : List α} {i j : Nat} {x y : α}

theorem failsAt_of_getElem? (hx : xs[i]? = some x) : failsAt holds xs i = !holds x := by
  rw [failsAt, hx, Option.all_some]

/-- What holds of an element holds of all elements before it. -/
theorem holds_of_lt (h : xs.Pairwise fun a b => holds b → holds a) (hij : i < j)
    (hx : xs[i]? = some x) (hy : xs[j]? = some y) (hholds : holds y) : holds x := by
  obtain ⟨hi, rfl⟩ := List.getElem?_eq_some_iff.1 hx
  obtain ⟨hj, rfl⟩ := List.getElem?_eq_some_iff.1 hy
  exact List.pairwise_iff_getElem.1 h i j hi hj hij hholds

/-- Past the first place that fails, all places fail. -/
theorem failsAt_mono (h : xs.Pairwise fun a b => holds b → holds a) (i j : Nat) (hij : i ≤ j)
    (hi : failsAt holds xs i) : failsAt holds xs j := by
  rcases Nat.eq_or_lt_of_le hij with rfl | hlt
  · exact hi
  · cases hy : xs[j]? with
    | none => rw [failsAt, hy, Option.all_none]
    | some y =>
      have hx := List.getElem?_eq_getElem (Nat.lt_trans hlt (List.getElem?_eq_some_iff.1 hy).1)
      rw [failsAt_of_getElem? hy, Bool.not_eq_true', Bool.eq_false_iff]
      rw [failsAt_of_getElem? hx, Bool.not_eq_true', Bool.eq_false_iff] at hi
      exact fun hholds => hi (holds_of_lt h hlt hx hy hholds)

/-- In a list on whose front alone a condition holds, what follows the partition point is what is
left when that front is dropped. -/
theorem drop_partitionPoint (h : xs.Pairwise fun a b => holds b → holds a) :
    partitionPoint holds xs ≤ xs.length
      ∧ xs.drop (partitionPoint holds xs) = xs.dropWhile holds := by
  rcases Nat.eq_zero_or_pos xs.length with hzero | hpos
  · obtain rfl := List.eq_nil_of_length_eq_zero hzero
    have hpoint : partitionPoint holds [] = 0 := by
      rw [partitionPoint, halve]
      rfl
    rw [hpoint]
    exact ⟨Nat.le_refl 0, rfl⟩
  · obtain ⟨-, hlast, hfound, hafter⟩ :=
      halve_spec (failsAt holds xs) 0 xs.length hpos (failsAt_mono h)
    have hpoint : partitionPoint holds xs
        = if xs[halve (failsAt holds xs) 0 xs.length]?.any holds
          then halve (failsAt holds xs) 0 xs.length + 1
          else halve (failsAt holds xs) 0 xs.length := rfl
    generalize halve (failsAt holds xs) 0 xs.length = last at hlast hfound hafter hpoint
    rw [Nat.zero_add] at hlast hafter
    have hx := List.getElem?_eq_getElem hlast
    rw [hpoint, hx, Option.any_some]
    by_cases hholds : holds xs[last]
    · -- the condition holds up to the last place, and fails behind it
      rw [if_pos hholds]
      refine ⟨hlast, (dropWhile_eq_drop (fun i y hi hy => ?_) fun y hy => ?_).symm⟩
      · rcases Nat.eq_or_lt_of_le (Nat.lt_succ_iff.1 hi) with rfl | hlt
        · rwa [← Option.some.inj (hx.symm.trans hy)]
        · exact holds_of_lt h hlt hy hx hholds
      · have hfail := hafter (last + 1) (Nat.lt_succ_self last)
          (List.getElem?_eq_some_iff.1 hy).1
        rwa [failsAt_of_getElem? hy, Bool.not_eq_true'] at hfail
    · -- the condition fails at the last place, which then is the first one
      rw [if_neg hholds]
      rw [Bool.not_eq_true] at hholds
      have hzero : last = 0 := by
        refine hfound.resolve_right fun hpass => ?_
        rw [failsAt_of_getElem? hx, hholds] at hpass
        contradiction
      subst hzero
      refine ⟨Nat.zero_le _, (dropWhile_eq_drop nofun fun y hy => ?_).symm⟩
      rwa [← Option.some.inj (hx.symm.trans hy)]

end PartitionPoint

namespace Checked

/-- There are no more entries than members. -/
theorem length_distinctNames_le (members : List Member) :
    (distinctNames members).length ≤ members.length := by
  calc (distinctNames members).length
      ≤ (sortedEntries members).length := (sublist_keepFirst _).length_le
    _ = members.length := by rw [sortedEntries, List.length_mergeSort, List.length_map]

section Search

variable {entries : List LookupEntry} {name : String} {low high : Nat}

/-- One step of a search: the middle lies between the places, and its name is in the table. -/
theorem search_step (h : entries.length < wordCount) (hlt : low < high) {mid : Nat}
    (hmid : mid = low + (high - low) / 2) {e : LookupEntry} (he : entries[mid]? = some e) :
    search entries (LookupPlan.table entries) name low high
      = match compare name e.name with
        | .eq => .ok (some e.value)
        | .lt => search entries (LookupPlan.table entries) name low mid
        | .gt => search entries (LookupPlan.table entries) name (mid + 1) high := by
  have hlength : mid < entries.length := (List.getElem?_eq_some_iff.1 he).1
  have hname : tableName? (LookupPlan.table entries) mid = .ok (some e.name) := by
    rw [LookupPlan.table, tableName?_ofNames (by rwa [List.length_map]), ← LookupPlan.table,
      LookupPlan.getElem?_table, he, Option.map_some]
  have hsum : low + (high - low) / 2 < wordCount := by omega
  have hnext : mid + 1 < wordCount := by omega
  rw [search, if_pos hlt, sub_eq (Nat.le_of_lt hlt)]
  simp only [ok_bind, pure_eq, add_eq hsum, ← hmid, hname]
  cases compare name e.name with
  | lt => rfl
  | eq => simp only [element_eq he, ok_bind]
  | gt => simp only [add_eq hnext, ok_bind]

/-- A search takes the steps of `bisect?`, and the entry is there where the name was found. -/
theorem search_eq (h : entries.length < wordCount) (hhigh : high ≤ entries.length) :
    search entries (LookupPlan.table entries) name low high
      = .ok (((bisect? (fun i => entries[i]?.map (compare name ·.name)) low high).bind
          (entries[·]?)).map LookupEntry.value) := by
  fun_induction bisect? (fun i => entries[i]?.map (compare name ·.name)) low high with
  | case1 low high hlt mid hmid =>
    rw [List.getElem?_eq_getElem (by omega)] at hmid
    contradiction
  | case2 low high hlt mid hmid =>
    obtain ⟨e, he, hc⟩ := Option.map_eq_some_iff.1 hmid
    rw [search_step h hlt rfl he, hc, Option.bind_some, he, Option.map_some]
  | case3 low high hlt mid hmid ih =>
    obtain ⟨e, he, hc⟩ := Option.map_eq_some_iff.1 hmid
    rw [search_step h hlt rfl he, hc, ← ih (by omega)]
  | case4 low high hlt mid hmid ih =>
    obtain ⟨e, he, hc⟩ := Option.map_eq_some_iff.1 hmid
    rw [search_step h hlt rfl he, hc, ← ih hhigh]
  | case5 low high hlt =>
    rw [search, if_neg hlt]
    rfl

end Search

/-- Every query of the plan of some members is answered without a fault. -/
theorem value?_select {members : List Member} (h : members.length < wordCount)
    (thresholds : Nat × Nat) (name : String) :
    value? (.select members thresholds) name
      = .ok ((LookupPlan.select members thresholds).value? name) := by
  have hentries : (distinctNames members).length < wordCount :=
    Nat.lt_of_le_of_lt (length_distinctNames_le members) h
  rw [LookupPlan.select]
  split
  · -- the hashes increase, so that those less than the hash of the name stand in front
    have hsorted : (LookupPlan.hashed (distinctNames members)).Pairwise fun a b =>
        decide (b.1 < Digest.fnv1a name) → decide (a.1 < Digest.fnv1a name) := by
      refine (LookupPlan.pairwise_hashed _).imp fun hle hlt => ?_
      exact decide_eq_true (UInt32.lt_of_le_of_lt hle (of_decide_eq_true hlt))
    obtain ⟨hle, hdrop⟩ := drop_partitionPoint hsorted
    rw [value?]
    simp only [elementsFrom_eq hle, hdrop, ok_bind]
    rw [LookupPlan.value?, LookupPlan.find?, Option.map_map]
    rfl
  · split
    · rw [value?, search_eq hentries (Nat.le_refl _), LookupPlan.value?, LookupPlan.find?]
      simp only [LookupPlan.getElem?_table, Option.map_map]
      rfl
    · rfl

end Checked

end EnumNames
