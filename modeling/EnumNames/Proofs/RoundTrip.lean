import EnumNames.Proofs.Display.Plan
import EnumNames.Proofs.Lookup.Plan
import Mathlib.Data.List.Nodup

/-!
# From names to values and back

A display plan and a lookup plan are made from the same members, but each breaks its own ties: the
members hold the constant declared first of each value, and a lookup plan the member declared first
of each name. So a name that is found leads back to itself, while a value may come back as another
one of the same name.

* `text_select_of_mem`, `value?_select_name`: a member in both directions.
* `Enumeration.Fits.text_value?`: the two directions together, and when they undo each other.
-/

namespace EnumNames

variable {ms : List Member} {m m' : Member} {runThreshold : Nat} {thresholds : Nat × Nat}
  {typeName name : String} {v : Int}

/-! ## Members -/

/-- The value of a member is shown as its name. -/
theorem text_select_of_mem (h : Increasing ms) (hm : m ∈ ms) :
    (DisplayPlan.select ms runThreshold).text typeName m.value = m.name := by
  -- no other member has the value, so the first one with it is this one
  rw [DisplayPlan.text, DisplayPlan.name?_select h,
    Enumeration.find?_eq_some_of_mem h.pairwise_value hm]
  rfl

/-- A name that is found belongs to a member with the value. -/
theorem exists_of_value?_select (h : (LookupPlan.select ms thresholds).value? name = some v) :
    ∃ m ∈ ms, m.name = name ∧ m.value = v := by
  rw [LookupPlan.value?, LookupPlan.find?_select] at h
  obtain ⟨x, hx, hv⟩ := Option.map_eq_some_iff.1 h
  obtain ⟨m, hm, rfl, hname, -⟩ := find?_distinctNames_eq_some hx
  exact ⟨m, hm, hname, hv⟩

/-- The name of a member leads to a member with that name. -/
theorem value?_select_name (thresholds : Nat × Nat) (hm : m ∈ ms) :
    ∃ m' ∈ ms, m'.name = m.name
      ∧ (LookupPlan.select ms thresholds).value? m.name = some m'.value := by
  cases hvalue : (LookupPlan.select ms thresholds).value? m.name with
  | some v =>
    obtain ⟨m', hm', hname, rfl⟩ := exists_of_value?_select hvalue
    exact ⟨m', hm', hname, rfl⟩
  | none =>
    -- the member itself would have been found
    rw [LookupPlan.value?, LookupPlan.find?_select, Option.map_eq_none_iff,
      find?_distinctNames_eq_none] at hvalue
    exact absurd rfl (hvalue m hm)

/-- All names lead back to the members that have them exactly if no two members share one. -/
theorem value?_name_eq_iff_nodup (h : Increasing ms) (thresholds : Nat × Nat) :
    (∀ m ∈ ms, (LookupPlan.select ms thresholds).value? m.name = some m.value)
      ↔ (ms.map Member.name).Nodup := by
  constructor
  · intro hback
    rw [List.Nodup, List.pairwise_map]
    -- a name that two members share would lead to both of their values
    refine h.pairwise_value.imp_of_mem fun {a b} ha hb hlt hname => ?_
    have hvalue := hback a ha
    rw [hname, hback b hb] at hvalue
    have := Option.some.inj hvalue
    omega
  · intro hnodup m hm
    obtain ⟨m', hm', hname, hvalue⟩ := value?_select_name thresholds hm
    rw [hvalue, List.inj_on_of_nodup_map hnodup hm' hm hname]

/-! ## Constants -/

namespace Enumeration

variable {e : Enumeration} {kind : Kind} {set : MemberSet}

/-- Whatever shapes the two plans have, a name that is found leads to a value that is shown by this
name; each declared value is shown by a name that leads to a value with the same name; and it leads
to the value itself, for all declared values, exactly if no two members share a name. -/
theorem Fits.text_value? (h : e.Fits kind) (hset : e.memberSet = .ok set) (typeName : String)
    (runThreshold : Nat) (thresholds : Nat × Nat) :
    let display := DisplayPlan.select set.members runThreshold
    let lookup := LookupPlan.select set.members thresholds
    (∀ name v, lookup.value? name = some v → display.text typeName v = name)
      ∧ (∀ c ∈ e.constants, ∃ v, lookup.value? (display.text typeName c.value) = some v
        ∧ display.text typeName v = display.text typeName c.value)
      ∧ ((∀ c ∈ e.constants, lookup.value? (display.text typeName c.value) = some c.value)
        ↔ (set.members.map Member.name).Nodup) := by
  intro display lookup
  have hmembers : set.members = e.distinctMembers := by
    rw [h.eq_of_memberSet hset]
  have hincreasing : Increasing set.members := by
    rw [hmembers]
    exact h.increasing
  have htext : ∀ m ∈ set.members, display.text typeName m.value = m.name := fun m hm =>
    text_select_of_mem hincreasing hm
  -- so that what is said of members can be said of constants
  have hvalues : ∀ v, (∃ m ∈ set.members, m.value = v) ↔ ∃ c ∈ e.constants, c.value = v := by
    intro v
    rw [hmembers]
    exact h.exists_mem_distinctMembers_iff
  refine ⟨?_, ?_, ?_⟩
  · intro name v hvalue
    obtain ⟨m, hm, rfl, rfl⟩ := exists_of_value?_select hvalue
    exact htext m hm
  · intro c hc
    obtain ⟨m, hm, hv⟩ := (hvalues c.value).2 ⟨c, hc, rfl⟩
    obtain ⟨m', hm', hname, hvalue⟩ := value?_select_name thresholds hm
    rw [← hv, htext m hm]
    exact ⟨m'.value, hvalue, by rw [htext m' hm', hname]⟩
  · rw [← value?_name_eq_iff_nodup hincreasing thresholds]
    constructor
    · intro hback m hm
      obtain ⟨c, hc, hv⟩ := (hvalues m.value).1 ⟨m, hm, rfl⟩
      have hvalue := hback c hc
      rwa [hv, htext m hm] at hvalue
    · intro hback c hc
      obtain ⟨m, hm, hv⟩ := (hvalues c.value).2 ⟨c, hc, rfl⟩
      rw [← hv, htext m hm]
      exact hback m hm

/-- The two ends of the kind share a name, so one of them comes back as the other. -/
theorem text_value?_gauge :
    (∃ v, (LookupPlan.select gauge.distinctMembers (0, 8)).value?
          ((DisplayPlan.select gauge.distinctMembers 2).text "Gauge" (-9223372036854775808)) = some v
        ∧ (DisplayPlan.select gauge.distinctMembers 2).text "Gauge" v
          = (DisplayPlan.select gauge.distinctMembers 2).text "Gauge" (-9223372036854775808))
      ∧ ¬ ∀ c ∈ gauge.constants, (LookupPlan.select gauge.distinctMembers (0, 8)).value?
        ((DisplayPlan.select gauge.distinctMembers 2).text "Gauge" c.value) = some c.value := by
  have hset : gauge.memberSet = .ok ⟨"Gauge", .i64, gauge.distinctMembers⟩ :=
    fits_gauge.memberSet_eq (by decide)
  obtain ⟨-, hshown, hback⟩ := Fits.text_value? fits_gauge hset "Gauge" 2 (0, 8)
  let least : Constant := .ofInt true "Most" "Gauge::LEAST" (-9223372036854775808)
  let most : Constant := .ofInt true "Most" "Gauge::MOST" 9223372036854775807
  have hleast : ⟨4, least⟩ ∈ gauge.distinctMembers := by
    refine fits_gauge.mem_distinctMembers.2 ⟨rfl, fun j d (hj : j < 4) hd => ?_⟩
    have hothers : ∀ d ∈ gauge.constants.take 4, d.value ≠ least.value := by
      decide
    apply hothers d
    apply List.mem_of_getElem?
    rwa [List.getElem?_take_of_lt hj]
  have hmost : ⟨0, most⟩ ∈ gauge.distinctMembers :=
    fits_gauge.mem_distinctMembers.2 ⟨rfl, fun j d (hj : j < 0) _ => absurd hj (Nat.not_lt_zero j)⟩
  refine ⟨hshown least (by decide), fun hall => ?_⟩
  -- both members are named the same, though they stand at different positions
  have heq := List.inj_on_of_nodup_map (hback.1 hall) hleast hmost rfl
  exact absurd (congrArg Member.position heq) (by decide)

end Enumeration

end EnumNames
