import EnumNames.Proofs.Generated.Item
import EnumNames.Proofs.Layout
import EnumNames.Proofs.Position
import Mathlib.Data.List.FinRange
import Mathlib.Data.List.Sort

/-!
# The order of declaration

Constants may be declared in another order. As long as those that share a value or a name stay in
order, the same members are kept, only at other positions, and the code is the same but for the order
of the assertions.

* `Enumeration.IsReordering`: the constants of two enumerations, one by one.
* `Enumeration.IsReordering.distinctMembers_eq`: the member set of the other enumeration.
* `Enumeration.generate_reordered`: the code of both.
-/

namespace EnumNames

namespace Enumeration

/-- The constants of `e'` are those of `e` in another order: `σ` tells where each one goes. Those that
share a value or a name stay in order. -/
structure IsReordering (e e' : Enumeration)
    (σ : Fin e.constants.length ≃ Fin e'.constants.length) : Prop where
  name_eq : e'.name = e.name
  kind_eq : e'.kind = e.kind
  get_eq : ∀ i, e'.constants.get (σ i) = e.constants.get i
  lt_of_shared : ∀ i j, i < j → (e.constants.get i).value = (e.constants.get j).value
    ∨ (e.constants.get i).name = (e.constants.get j).name → σ i < σ j

namespace IsReordering

variable {e e' : Enumeration} {σ : Fin e.constants.length ≃ Fin e'.constants.length} {kind : Kind}

/-- Where the constant at position `i` goes. -/
def place (σ : Fin e.constants.length ≃ Fin e'.constants.length) (i : Nat) : Nat :=
  if h : i < e.constants.length then σ ⟨i, h⟩ else i

theorem place_fin (i : Fin e.constants.length) : place σ i = σ i :=
  dif_pos i.isLt

/-- A constant of the second enumeration is found at its place in the first. -/
theorem get_symm_eq (h : e.IsReordering e' σ) (i : Fin e'.constants.length) :
    e.constants.get (σ.symm i) = e'.constants.get i := by
  rw [← h.get_eq, Equiv.apply_symm_apply]

/-- The first order is a reordering of the second one. -/
theorem symm (h : e.IsReordering e' σ) : e'.IsReordering e σ.symm where
  name_eq := h.name_eq.symm
  kind_eq := h.kind_eq.symm
  get_eq := h.get_symm_eq
  lt_of_shared i j hlt hshared := by
    by_contra hle
    have hne : σ.symm j ≠ σ.symm i := fun heq => hlt.ne (σ.symm.injective heq).symm
    have hback : σ.symm j < σ.symm i := lt_of_le_of_ne (not_lt.1 hle) hne
    rw [← h.get_symm_eq, ← h.get_symm_eq] at hshared
    have hforth := h.lt_of_shared _ _ hback (hshared.imp Eq.symm Eq.symm)
    rw [Equiv.apply_symm_apply, Equiv.apply_symm_apply] at hforth
    exact lt_asymm hlt hforth

/-- Two orders of the same constants. -/
theorem perm_constants (h : e.IsReordering e' σ) : e'.constants.Perm e.constants := by
  have hplaces : (List.finRange e'.constants.length).Perm
      ((List.finRange e.constants.length).map σ) := by
    refine (List.perm_ext_iff_of_nodup (List.nodup_finRange _)
      ((List.nodup_finRange _).map σ.injective)).2 fun i => ?_
    exact iff_of_true (List.mem_finRange i)
      (List.mem_map.2 ⟨σ.symm i, List.mem_finRange _, σ.apply_symm_apply i⟩)
  have hconstants : ((List.finRange e.constants.length).map σ).map e'.constants.get
      = e.constants := by
    rw [List.map_map, ← List.ofFn_eq_map]
    exact (congrArg List.ofFn (funext h.get_eq)).trans (List.ofFn_get _)
  have hconstants' : (List.finRange e'.constants.length).map e'.constants.get = e'.constants := by
    rw [← List.ofFn_eq_map, List.ofFn_get]
  have hperm := hplaces.map e'.constants.get
  rwa [hconstants, hconstants'] at hperm

theorem constants_eq_nil_iff (h : e.IsReordering e' σ) : e'.constants = [] ↔ e.constants = [] := by
  rw [← List.length_eq_zero_iff, h.perm_constants.length_eq, List.length_eq_zero_iff]

/-- An enumeration in another order fits its kind as well. -/
theorem fits (h : e.IsReordering e' σ) (hfits : e.Fits kind) : e'.Fits kind where
  ofText?_kind := h.kind_eq ▸ hfits.ofText?_kind
  signed_eq c hc := hfits.signed_eq c (h.perm_constants.mem_iff.1 hc)
  contains_value c hc := hfits.contains_value c (h.perm_constants.mem_iff.1 hc)

/-! ## Members -/

/-- The first constant of a value goes to the first place of that value. -/
theorem declaredFirst_place (h : e.IsReordering e' σ) {i : Nat} {c : Constant}
    (hfirst : e.DeclaredFirst i c) : e'.DeclaredFirst (place σ i) c := by
  obtain ⟨hget, hbefore⟩ := hfirst
  obtain ⟨hi, hc⟩ := List.getElem?_eq_some_iff.1 hget
  have hplace : place σ i = σ ⟨i, hi⟩ := place_fin ⟨i, hi⟩
  have hmoved : e'.constants.get (σ ⟨i, hi⟩) = c := (h.get_eq ⟨i, hi⟩).trans hc
  rw [hplace]
  refine ⟨List.getElem?_eq_some_iff.2 ⟨_, hmoved⟩, fun j d hj hd heq => ?_⟩
  -- a constant of the same value before it would have come before it in the first order as well
  obtain ⟨hj', hd⟩ := List.getElem?_eq_some_iff.1 hd
  have hvalue : (e'.constants.get ⟨j, hj'⟩).value = (e'.constants.get (σ ⟨i, hi⟩)).value := by
    rw [hmoved, ← heq]
    exact congrArg Constant.value hd
  have hlt := h.symm.lt_of_shared ⟨j, hj'⟩ (σ ⟨i, hi⟩) hj (.inl hvalue)
  rw [Equiv.symm_apply_apply] at hlt
  refine hbefore _ _ hlt (List.getElem?_eq_getElem (Fin.isLt _)) ?_
  exact (congrArg Constant.value (h.get_symm_eq ⟨j, hj'⟩)).trans (hvalue.trans (congrArg _ hmoved))

/-- The member set of the other order: the same members at their new positions. -/
theorem distinctMembers_eq (h : e.IsReordering e' σ) (hfits : e.Fits kind) :
    e'.distinctMembers = e.distinctMembers.map (·.moved (place σ)) := by
  have hfits' := h.fits hfits
  have hanti : Std.Antisymm fun a b : Member => a.value < b.value :=
    ⟨fun _ _ hlt hgt => absurd hgt (Int.lt_asymm hlt)⟩
  have hirrefl : Std.Irrefl fun a b : Member => a.value < b.value := ⟨fun _ => Int.lt_irrefl _⟩
  have hmoved : (e.distinctMembers.map (·.moved (place σ))).Pairwise fun a b => a.value < b.value :=
    List.pairwise_map.2 hfits.isUniform.pairwise_distinctMembers
  refine List.Pairwise.eq_of_mem_iff hfits'.isUniform.pairwise_distinctMembers hmoved fun m => ?_
  rw [hfits'.mem_distinctMembers, List.mem_map]
  constructor
  · intro hfirst
    have hback := h.symm.declaredFirst_place hfirst
    obtain ⟨hi, -⟩ := List.getElem?_eq_some_iff.1 hfirst.1
    have hplace : place σ (place σ.symm m.position) = m.position := by
      have hsymm : place σ.symm m.position = σ.symm ⟨m.position, hi⟩ := place_fin ⟨m.position, hi⟩
      rw [hsymm, place_fin, Equiv.apply_symm_apply]
    exact ⟨⟨place σ.symm m.position, m.constant⟩, hfits.mem_distinctMembers.2 hback,
      congrArg (Member.mk · m.constant) hplace⟩
  · rintro ⟨m', hm', rfl⟩
    exact h.declaredFirst_place (hfits.mem_distinctMembers.1 hm')

/-- The order of equal values, which names are chosen by, is kept. -/
theorem keepsOrderOfNames (h : e.IsReordering e' σ) (hfits : e.Fits kind) :
    KeepsOrderOfNames (place σ) e.distinctMembers := by
  have hlt : ∀ a ∈ e.distinctMembers, ∀ b ∈ e.distinctMembers, a.name = b.name →
      a.position < b.position → place σ a.position < place σ b.position := by
    intro a ha b hb hname hlt
    obtain ⟨hi, ha⟩ := List.getElem?_eq_some_iff.1 (hfits.mem_distinctMembers.1 ha).1
    obtain ⟨hj, hb⟩ := List.getElem?_eq_some_iff.1 (hfits.mem_distinctMembers.1 hb).1
    have hshared : (e.constants.get ⟨a.position, hi⟩).name = (e.constants.get ⟨b.position, hj⟩).name :=
      (congrArg Constant.name ha).trans (hname.trans (congrArg Constant.name hb).symm)
    have hσ := h.lt_of_shared ⟨a.position, hi⟩ ⟨b.position, hj⟩ hlt (.inr hshared)
    have ha' : place σ a.position = σ ⟨a.position, hi⟩ := place_fin ⟨a.position, hi⟩
    have hb' : place σ b.position = σ ⟨b.position, hj⟩ := place_fin ⟨b.position, hj⟩
    rw [ha', hb']
    exact hσ
  intro a ha b hb hname
  rcases Nat.lt_trichotomy a.position b.position with hpos | hpos | hpos
  · exact iff_of_true hpos.le (hlt a ha b hb hname hpos).le
  · rw [hpos]
    exact iff_of_true le_rfl le_rfl
  · exact iff_of_false (by omega) (by have := hlt b hb a ha hname.symm hpos; omega)

end IsReordering

end Enumeration

/-! ## Code -/

/-- The code for members at other positions, with a guard for other constants. -/
def GeneratedType.reordered (g : GeneratedType) (f : Nat → Nat) (constants : List Constant) :
    GeneratedType :=
  { g with
    constants := constants
    display := g.display.moved f
    lookup := g.lookup.map fun lookup => { lookup with plan := lookup.plan.moved f } }

/-- The items after the guard are the same. -/
theorem GeneratedType.items_reordered (g : GeneratedType) (f : Nat → Nat)
    (constants : List Constant) : (g.reordered f constants).items
      = Guard.item constants :: (g.display.items g.typeName ++ g.lookupItems) := by
  have hlookup : (g.reordered f constants).lookupItems = g.lookupItems := by
    rw [lookupItems, lookupItems, reordered]
    cases g.lookup with
    | none => rfl
    | some lookup => exact lookup.plan.items_moved g.typeName lookup.functionName
  rw [items, hlookup, reordered, DisplayPlan.items_moved]
  rfl

namespace Enumeration

variable {e e' : Enumeration} {σ : Fin e.constants.length ≃ Fin e'.constants.length} {kind : Kind}
  {o : Options} {g : GeneratedType}

/-- What is generated differs in the places of the members and the order of the guard alone. -/
theorem IsReordering.generate_eq (h : e.IsReordering e' σ) (hfits : e.Fits kind)
    (hg : e.generate o = .ok g) :
    e'.generate o = .ok (g.reordered (IsReordering.place σ) e'.constants) := by
  obtain ⟨hne, rfl⟩ := eq_of_generate hg
  have hne' : e'.constants ≠ [] := mt h.constants_eq_nil_iff.1 hne
  have hlookup : ((o.lookupName? e.name).map fun functionName => GeneratedLookup.mk functionName
        (.select (e.distinctMembers.map (·.moved (IsReordering.place σ))) o.lookupThresholds))
      = ((o.lookupName? e.name).map fun functionName => GeneratedLookup.mk functionName
          (.select e.distinctMembers o.lookupThresholds)).map fun lookup =>
        { lookup with plan := lookup.plan.moved (IsReordering.place σ) } := by
    rw [Option.map_map, LookupPlan.select_moved (h.keepsOrderOfNames hfits)]
    rfl
  rw [generate, (h.fits hfits).memberSet_eq hne', h.distinctMembers_eq hfits, Except.map]
  simp only [h.name_eq, List.length_map, DisplayPlan.select_moved, hlookup]
  rfl

/-- The order of declaration shows in the guard alone: it has the same assertions in another order,
and the text after it is the same, and so are the number of values and the shapes of the code. -/
theorem generate_reordered (h : e.IsReordering e' σ) (hfits : e.Fits kind) (o : Options) :
    (e.constants = [] ∧ e.generate o = .error (.noConstants e.name)
        ∧ e'.generate o = .error (.noConstants e.name))
      ∨ ∃ g g', e.generate o = .ok g ∧ e'.generate o = .ok g'
        ∧ g'.size = g.size ∧ g'.display.shape = g.display.shape
        ∧ g'.lookup.map (·.plan.shape) = g.lookup.map (·.plan.shape)
        ∧ (e'.constants.map Guard.condition).Perm (e.constants.map Guard.condition)
        ∧ ∃ rest, g.text = Guard.text e.constants ++ rest
          ∧ g'.text = Guard.text e'.constants ++ rest := by
  by_cases hne : e.constants = []
  · refine .inl ⟨hne, ?_, ?_⟩
    · rw [generate, memberSet, hfits.ofText?_kind, hne]
      rfl
    · rw [generate, memberSet, (h.fits hfits).ofText?_kind, h.constants_eq_nil_iff.2 hne, h.name_eq]
      rfl
  · refine .inr ?_
    obtain ⟨g, hg⟩ : ∃ g, e.generate o = .ok g := ⟨_, by rw [generate, hfits.memberSet_eq hne]; rfl⟩
    refine ⟨g, _, hg, h.generate_eq hfits hg, rfl, g.display.shape_moved _, ?_,
      h.perm_constants.map _, Code.itemsText (g.display.items g.typeName ++ g.lookupItems), ?_, ?_⟩
    · rw [GeneratedType.reordered, Option.map_map]
      exact congrArg (g.lookup.map ·) (funext fun lookup => lookup.plan.shape_moved)
    · rw [GeneratedType.text, GeneratedType.items, ← Guard.itemsText_item,
        (eq_of_generate hg).2]
      rfl
    · rw [GeneratedType.text, GeneratedType.items_reordered, Guard.itemsText_item]

/-- The constants of the gauge in another order. Two of them share a value, two others a name. -/
def turnedGauge : Enumeration :=
  ⟨"Gauge", " i64 ",
    [.ofInt true "Zero" "Gauge::ZERO" 0, .ofInt true "" "Gauge::LOW" (-1),
      .ofInt true "Nil" "Gauge::NIL" 0, .ofInt true "Most" "Gauge::MOST" 9223372036854775807,
      .ofInt true "Most" "Gauge::LEAST" (-9223372036854775808)]⟩

/-- Where the constants of the gauge go. -/
def gaugeTurn : Fin 5 ≃ Fin 5 where
  toFun i := [3, 0, 1, 2, 4].get i
  invFun i := [1, 2, 3, 0, 4].get i
  left_inv i := by
    revert i
    decide
  right_inv i := by
    revert i
    decide

/-- Two constants of different values have changed places. -/
theorem isReordering_turnedGauge : gauge.IsReordering turnedGauge gaugeTurn :=
  ⟨rfl, rfl, by decide, by decide⟩

/-- Options that ask for a lookup function. -/
def lookupOptions : Options :=
  { lookupTemplate := "\x7b\x7d_from_text" }

/-- The example with all that is promised for the other order. -/
theorem generate_reordered_gauge : gauge.IsReordering turnedGauge gaugeTurn ∧ gauge.Fits .i64
    ∧ ∃ g g', gauge.generate lookupOptions = .ok g ∧ turnedGauge.generate lookupOptions = .ok g'
      ∧ g'.size = g.size ∧ g'.display.shape = g.display.shape
      ∧ g'.lookup.map (·.plan.shape) = g.lookup.map (·.plan.shape)
      ∧ (turnedGauge.constants.map Guard.condition).Perm (gauge.constants.map Guard.condition)
      ∧ ∃ rest, g.text = Guard.text gauge.constants ++ rest
        ∧ g'.text = Guard.text turnedGauge.constants ++ rest := by
  refine ⟨isReordering_turnedGauge, fits_gauge, ?_⟩
  rcases generate_reordered isReordering_turnedGauge fits_gauge lookupOptions with
    ⟨hnil, -⟩ | hcode
  · exact absurd hnil (by decide)
  · exact hcode

end Enumeration

end EnumNames
