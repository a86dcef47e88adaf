import EnumNames.Proofs.Display.Plan
import EnumNames.Proofs.Generated.Type
import Mathlib.Data.Finset.Max

/-!
# Shapes of the code of a type

The code of a type has as many values as the set of its values has elements, and its shapes are
chosen by that number and by the number of runs. A run begins at each value that follows no other
one, so that both numbers can be read off the set: names, repeated values and the order of
declaration have no influence.

* `DisplayPlan.shape_select` and `LookupPlan.shape_select`: what a shape is chosen by.
* `Increasing.length_runs`: there is a run for each value that follows no other one.
* `Enumeration.Fits.exists_codeShape`: size and shapes as a function of the set of values.
* `Enumeration.generate_shape_iff`: when each shape is chosen.
-/

namespace EnumNames

/-! ## What the shapes are chosen by -/

/-- The shape of the code that shows a value, by the number of runs. -/
def DisplayShape.ofRunCount (count threshold : Nat) : DisplayShape :=
  if count = 1 then .oneRun else if count ≤ threshold then .multiRun else .sparseMap

/-- The shape of the code that looks a name up, by the number of values. -/
def LookupShape.ofSize (size : Nat) (thresholds : Nat × Nat) : LookupShape :=
  if size ≤ thresholds.1 then .hashedSwitch
  else if size ≤ thresholds.2 then .binarySearch
  else .directMap

/-- The shape of a display plan depends on the number of runs alone. -/
theorem DisplayPlan.shape_select (ms : List Member) (threshold : Nat) :
    (select ms threshold).shape = .ofRunCount (runs ms).length threshold := by
  rw [select, DisplayShape.ofRunCount]
  split
  · next run hrun => rw [hrun, List.length_singleton, if_pos rfl, shape]
  · next hmany =>
    have hlength : (runs ms).length ≠ 1 := by
      intro hone
      obtain ⟨run, hrun⟩ := List.length_eq_one_iff.1 hone
      exact hmany run hrun
    rw [if_neg hlength, apply_ite shape, shape, shape]

/-- The shape of a lookup plan depends on the number of members alone. -/
theorem LookupPlan.shape_select (ms : List Member) (thresholds : Nat × Nat) :
    (select ms thresholds).shape = .ofSize ms.length thresholds := by
  rw [select, apply_ite shape, apply_ite shape]
  rfl

namespace DisplayShape

variable {count threshold : Nat}

/-- One run has a shape of its own, whatever the threshold is. -/
theorem ofRunCount_eq_oneRun_iff : ofRunCount count threshold = .oneRun ↔ count = 1 := by
  grind [ofRunCount]

theorem ofRunCount_eq_multiRun_iff (h : 1 ≤ count) :
    ofRunCount count threshold = .multiRun ↔ 2 ≤ count ∧ count ≤ threshold := by
  grind [ofRunCount]

/-- With more runs than the threshold, members are looked up one by one. -/
theorem ofRunCount_eq_sparseMap_iff (h : 1 ≤ count) :
    ofRunCount count threshold = .sparseMap ↔ max 1 threshold < count := by
  grind [ofRunCount]

end DisplayShape

namespace LookupShape

variable {size : Nat} {thresholds : Nat × Nat}

theorem ofSize_eq_hashedSwitch_iff : ofSize size thresholds = .hashedSwitch ↔ size ≤ thresholds.1 := by
  grind [ofSize]

theorem ofSize_eq_binarySearch_iff :
    ofSize size thresholds = .binarySearch ↔ thresholds.1 < size ∧ size ≤ thresholds.2 := by
  grind [ofSize]

/-- Sets that are larger than both thresholds get a map. -/
theorem ofSize_eq_directMap_iff :
    ofSize size thresholds = .directMap ↔ max thresholds.1 thresholds.2 < size := by
  grind [ofSize]

end LookupShape

/-! ## Counting values and runs -/

/-- The values of the constants, without order and repetition. -/
def Enumeration.values (e : Enumeration) : Finset Int :=
  (e.constants.map Constant.value).toFinset

/-- The numbers of a set that follow no other one. -/
def runStarts (values : Finset Int) : Finset Int :=
  values.filter fun v => v - 1 ∉ values

/-- A set that is not empty has a value that begins a run. -/
theorem runStarts_nonempty {values : Finset Int} (h : values.Nonempty) :
    (runStarts values).Nonempty := by
  -- the least value follows no other one
  refine ⟨values.min' h, Finset.mem_filter.2 ⟨values.min'_mem h, fun hbefore => ?_⟩⟩
  have hle := values.min'_le _ hbefore
  omega

namespace Increasing

variable {ms : List Member}

/-- Members in increasing order have as many values. -/
theorem card_toFinset (h : Increasing ms) : (ms.map Member.value).toFinset.card = ms.length := by
  -- values that increase do not repeat
  have hnodup : (ms.map Member.value).Nodup :=
    List.pairwise_map.2 (h.pairwise_value.imp Int.ne_of_lt)
  rw [List.toFinset_card_of_nodup hnodup, List.length_map]

/-- There is a run for each value that follows no other one. -/
theorem length_runs (h : Increasing ms) :
    (runs ms).length = (runStarts (ms.map Member.value).toFinset).card := by
  have hstarts : ((runs ms).map Run.low).toFinset = runStarts (ms.map Member.value).toFinset := by
    ext v
    rw [List.mem_toFinset, mem_map_low_runs h, runStarts, Finset.mem_filter, List.mem_toFinset,
      List.mem_toFinset, List.mem_map, List.mem_map]
  rw [← hstarts, List.toFinset_card_of_nodup (nodup_map_low_runs h), List.length_map]

end Increasing

/-! ## Size and shapes -/

/-- What is reported of the code of a type: the number of values and the shapes. -/
structure CodeShape where
  size : Nat
  display : DisplayShape
  lookup : Option LookupShape
  deriving DecidableEq, Repr

/-- The size and the shapes of the code of a type. -/
def GeneratedType.codeShape (g : GeneratedType) : CodeShape :=
  ⟨g.size, g.display.shape, g.lookup.map (·.plan.shape)⟩

/-- The size and the shapes for a set of values. -/
def CodeShape.ofValues (o : Options) (values : Finset Int) : CodeShape :=
  { size := values.card
    display := .ofRunCount (runStarts values).card o.runThreshold
    lookup := if o.hasLookup then some (.ofSize values.card o.lookupThresholds) else none }

namespace Enumeration

variable {e : Enumeration} {kind : Kind}

/-- There are values if there are constants. -/
theorem values_nonempty_iff : e.values.Nonempty ↔ e.constants ≠ [] := by
  rw [values, List.toFinset_nonempty_iff, Ne, List.map_eq_nil_iff]

/-- The members have the values of the constants. -/
theorem Fits.toFinset_distinctMembers (h : e.Fits kind) :
    (e.distinctMembers.map Member.value).toFinset = e.values := by
  ext v
  rw [List.mem_toFinset, List.mem_map, h.exists_mem_distinctMembers_iff, values, List.mem_toFinset,
    List.mem_map]

/-- Size and shapes are a function of the set of values. -/
theorem Fits.exists_codeShape (h : e.Fits kind) (hne : e.constants ≠ []) (o : Options) :
    ∃ g, e.generate o = .ok g ∧ g.codeShape = .ofValues o e.values := by
  have hsize : e.distinctMembers.length = e.values.card := by
    rw [← h.toFinset_distinctMembers, h.increasing.card_toFinset]
  have hruns : (runs e.distinctMembers).length = (runStarts e.values).card := by
    rw [← h.toFinset_distinctMembers, h.increasing.length_runs]
  obtain ⟨g, hg⟩ : ∃ g, e.generate o = .ok g := exists_generate (by rw [h.ofText?_kind]; rfl) hne
  refine ⟨g, hg, ?_⟩
  have hlookup : ((o.lookupName? e.name).map fun _ =>
      (LookupPlan.select e.distinctMembers o.lookupThresholds).shape)
        = if o.hasLookup then some (.ofSize e.values.card o.lookupThresholds) else none := by
    rw [LookupPlan.shape_select, hsize, Options.lookupName?]
    split <;> rfl
  rw [(eq_of_generate hg).2, GeneratedType.codeShape, CodeShape.ofValues, Option.map_map,
    DisplayPlan.shape_select, hruns, hsize, ← hlookup]
  rfl

/-- The shape of the code that shows a value is chosen by the number of runs of the set of values,
that of the code that looks a name up by the number of values. All enumerations with these values
have code of the same size and of the same shapes. -/
theorem generate_shape_iff (h : e.Fits kind) (hne : e.constants ≠ []) (o : Options) :
    ∃ g, e.generate o = .ok g
      ∧ g.size = e.values.card
      ∧ (g.display.shape = .oneRun ↔ (runStarts e.values).card = 1)
      ∧ (g.display.shape = .multiRun
          ↔ 2 ≤ (runStarts e.values).card ∧ (runStarts e.values).card ≤ o.runThreshold)
      ∧ (g.display.shape = .sparseMap ↔ max 1 o.runThreshold < (runStarts e.values).card)
      ∧ (g.lookup.map (·.plan.shape) = none ↔ o.lookupTemplate = "")
      ∧ (g.lookup.map (·.plan.shape) = some .hashedSwitch
          ↔ o.lookupTemplate ≠ "" ∧ e.values.card ≤ o.lookupThresholds.1)
      ∧ (g.lookup.map (·.plan.shape) = some .binarySearch
          ↔ o.lookupTemplate ≠ "" ∧ o.lookupThresholds.1 < e.values.card
            ∧ e.values.card ≤ o.lookupThresholds.2)
      ∧ (g.lookup.map (·.plan.shape) = some .directMap
          ↔ o.lookupTemplate ≠ ""
            ∧ max o.lookupThresholds.1 o.lookupThresholds.2 < e.values.card)
      ∧ ∀ (e' : Enumeration) (kind' : Kind), e'.Fits kind' → e'.values = e.values →
          ∃ g', e'.generate o = .ok g' ∧ g'.codeShape = g.codeShape := by
  obtain ⟨g, hg, hshape⟩ := h.exists_codeShape hne o
  have hvalues : e.values.Nonempty := values_nonempty_iff.2 hne
  have hcount : 1 ≤ (runStarts e.values).card := (runStarts_nonempty hvalues).card_pos
  have htemplate : o.hasLookup ↔ o.lookupTemplate ≠ "" := by
    simp [Options.hasLookup]
  -- size and shapes are those of the set; what remains is about two numbers and the thresholds
  obtain ⟨hsize, hdisplay, hlookup⟩ : g.size = e.values.card
      ∧ g.display.shape = .ofRunCount (runStarts e.values).card o.runThreshold
      ∧ g.lookup.map (·.plan.shape)
        = if o.hasLookup then some (.ofSize e.values.card o.lookupThresholds) else none := by
    simpa only [GeneratedType.codeShape, CodeShape.ofValues, CodeShape.mk.injEq] using hshape
  refine ⟨g, hg, hsize, ?_⟩
  rw [hdisplay, hlookup]
  refine ⟨DisplayShape.ofRunCount_eq_oneRun_iff, DisplayShape.ofRunCount_eq_multiRun_iff hcount,
    DisplayShape.ofRunCount_eq_sparseMap_iff hcount, ?_, ?_, ?_, ?_, ?_⟩
  · simp [htemplate]
  · simp [htemplate, LookupShape.ofSize_eq_hashedSwitch_iff]
  · simp [htemplate, LookupShape.ofSize_eq_binarySearch_iff]
  · simp [htemplate, LookupShape.ofSize_eq_directMap_iff]
  · intro e' kind' h' hsame
    have hne' : e'.constants ≠ [] := values_nonempty_iff.1 (hsame ▸ hvalues)
    obtain ⟨g', hg', hshape'⟩ := h'.exists_codeShape hne' o
    exact ⟨g', hg', by rw [hshape', hshape, hsame]⟩

/-- An enumeration with the values of the gauge under other names and in another order. -/
def bareGauge : Enumeration :=
  ⟨"Bare", "isize",
    [.ofInt true "A" "Bare::A" (-9223372036854775808), .ofInt true "B" "Bare::B" (-1),
      .ofInt true "C" "Bare::C" 0, .ofInt true "D" "Bare::D" 9223372036854775807]⟩

/-- Minus one and zero are one run, while the ends of the kind are two. -/
theorem generate_shape_gauge :
    gauge.Fits .i64 ∧ gauge.constants ≠ []
      ∧ bareGauge.Fits .isize ∧ bareGauge.values = gauge.values
      ∧ ∃ g g', gauge.generate ⟨"{}_of", 2, (3, 4)⟩ = .ok g
        ∧ bareGauge.generate ⟨"{}_of", 2, (3, 4)⟩ = .ok g'
        ∧ g.size = 4 ∧ g.display.shape = .sparseMap
        ∧ g.lookup.map (·.plan.shape) = some .binarySearch ∧ g'.codeShape = g.codeShape := by
  have hne : gauge.constants ≠ [] := by decide
  have hbare : bareGauge.Fits .isize := ⟨by decide, by decide, by decide⟩
  have hsame : bareGauge.values = gauge.values := by decide
  have hsize : gauge.values.card = 4 := by decide
  have hcount : (runStarts gauge.values).card = 3 := by decide
  obtain ⟨g, hg, hcard, -, -, hsparse, -, -, hbinary, -, hother⟩ :=
    generate_shape_iff fits_gauge hne ⟨"{}_of", 2, (3, 4)⟩
  obtain ⟨g', hg', hshape⟩ := hother bareGauge .isize hbare hsame
  refine ⟨fits_gauge, hne, hbare, hsame, g, g', hg, hg', hcard.trans hsize, hsparse.2 ?_,
    hbinary.2 ?_, hshape⟩
  · rw [hcount]
    decide
  · rw [hsize]
    decide

end Enumeration

end EnumNames
