import EnumNames.Proofs.Generated.Shape
import EnumNames.Proofs.Layout
import EnumNames.Proofs.Manifest.Conversion
import EnumNames.Proofs.Manifest.Selection

/-!
# What a naming policy leaves alone

A policy names the constants of the selected types and does nothing else. Which types are converted,
which errors there are, and all of a constant but its name is the same for every policy; so the
guard, the number of values and the shapes of the code are the same, and the numbers that are shown
by a name are those that are declared.

* `Enumeration.nameless`: an enumeration without the names of its constants.
* `DeclaredType.map_nameless_enumeration`: without names, a type is converted to the same.
* `Enumeration.Fits.isSome_name?_iff`: the numbers that have a name.
* `Manifest.resolve_policy`: what is the same for two policies.
-/

namespace EnumNames

variable {kind : Kind} {o : Options} {g : GeneratedType}

/-! ## Without names -/

/-- The constant without its name. -/
def Constant.nameless (c : Constant) : Constant :=
  { c with name := "" }

@[simp] theorem Constant.value_nameless (c : Constant) : c.nameless.value = c.value := rfl

/-- The guard refers to constants, but it does not show their names. -/
theorem Guard.text_map_nameless (constants : List Constant) :
    Guard.text (constants.map Constant.nameless) = Guard.text constants := by
  rw [Guard.text, List.map_map]
  rfl

namespace Enumeration

variable {e e' : Enumeration}

/-- The enumeration without the names of its constants. -/
def nameless (e : Enumeration) : Enumeration :=
  { e with constants := e.constants.map Constant.nameless }

theorem constants_nameless (e : Enumeration) :
    e.nameless.constants = e.constants.map Constant.nameless := rfl

/-- The values do not depend on the names. -/
theorem values_nameless (e : Enumeration) : e.nameless.values = e.values := by
  rw [values, constants_nameless, List.map_map]
  rfl

/-- Whether constants fit their kind does not depend on the names. -/
theorem fits_nameless_iff : e.nameless.Fits kind ↔ e.Fits kind := by
  have hall : ∀ p : Constant → Prop, (∀ c, p c.nameless ↔ p c) →
      ((∀ c ∈ e.nameless.constants, p c) ↔ ∀ c ∈ e.constants, p c) := by
    intro p hp
    rw [constants_nameless, List.forall_mem_map]
    exact forall₂_congr fun c _ => hp c
  have hsigned := hall (·.signed = kind.isSigned) fun _ => Iff.rfl
  have hcontains := hall (fun c => kind.contains c.value) fun _ => Iff.rfl
  exact ⟨fun h => ⟨h.ofText?_kind, hsigned.1 h.signed_eq, hcontains.1 h.contains_value⟩,
    fun h => ⟨h.ofText?_kind, hsigned.2 h.signed_eq, hcontains.2 h.contains_value⟩⟩

/-! ## Generated code -/

/-- The numbers that are shown by a name are the values of the constants. -/
theorem Fits.isSome_name?_iff (h : e.Fits kind) (hg : e.generate o = .ok g) (v : Int) :
    (g.display.name? v).isSome ↔ v ∈ e.values := by
  have hname : g.display.name? v = (e.distinctMembers.find? (·.value = v)).map Member.name := by
    rw [(eq_of_generate hg).2]
    exact DisplayPlan.name?_select h.increasing o.runThreshold v
  have hfound : (e.distinctMembers.find? (·.value = v)).isSome
      ↔ ∃ m ∈ e.distinctMembers, m.value = v := by
    simp [List.find?_isSome]
  rw [hname, Option.isSome_map, hfound, h.exists_mem_distinctMembers_iff, values, List.mem_toFinset,
    List.mem_map]

/-- The text of a type begins with the guard of its constants. -/
theorem text_of_generate (hg : e.generate o = .ok g) : g.text
    = Guard.text e.constants ++ Code.itemsText (g.display.items g.typeName ++ g.lookupItems) := by
  have hconstants : g.constants = e.constants := by
    rw [(eq_of_generate hg).2]
  rw [GeneratedType.text, GeneratedType.items, List.cons_append, Guard.itemsText_item, hconstants]

/-- Types that differ in the names of their constants only are refused with one error, or the code
of both has the same guard, size and shapes, and shows the same numbers by a name. -/
theorem generate_of_nameless_eq (h : e.nameless = e'.nameless)
    (hfits : ∀ kind, Kind.ofText? e.kind = some kind → e.Fits kind) (o : Options) :
    (∃ err, e.generate o = .error err ∧ e'.generate o = .error err)
      ∨ ∃ g g', e.generate o = .ok g ∧ e'.generate o = .ok g'
        ∧ Guard.text e.constants = Guard.text e'.constants
        ∧ (∃ rest, g.text = Guard.text e.constants ++ rest)
        ∧ (∃ rest', g'.text = Guard.text e'.constants ++ rest')
        ∧ g.size = g'.size
        ∧ g.display.shape = g'.display.shape
        ∧ g.lookup.map (·.plan.shape) = g'.lookup.map (·.plan.shape)
        ∧ ∀ v, (g.display.name? v).isSome ↔ (g'.display.name? v).isSome := by
  obtain ⟨hname, hkinds, hconstants⟩ := Enumeration.mk.inj h
  have hnil : e.constants = [] ↔ e'.constants = [] := by
    rw [← List.map_eq_nil_iff (f := Constant.nameless), hconstants, List.map_eq_nil_iff]
  have herror : ∀ err, e.generate o = .error err ↔ e'.generate o = .error err := by
    intro err
    rw [generate_eq_error_iff, generate_eq_error_iff, hname, hkinds, hnil]
  cases hkind : Kind.ofText? e.kind with
  | none =>
    have hg : e.generate o = .error (.unsupportedKind e.name e.kind) :=
      generate_eq_error_iff.2 (.inl ⟨hkind, rfl⟩)
    exact .inl ⟨_, hg, (herror _).1 hg⟩
  | some kind =>
    have he : e.Fits kind := hfits kind hkind
    have he' : e'.Fits kind := fits_nameless_iff.1 (h ▸ fits_nameless_iff.2 he)
    by_cases hne : e.constants = []
    · have hg : e.generate o = .error (.noConstants e.name) :=
        generate_eq_error_iff.2 (.inr ⟨by rw [hkind]; rfl, hne, rfl⟩)
      exact .inl ⟨_, hg, (herror _).1 hg⟩
    · -- size, shapes and the numbers with a name are read off the values, which have no names
      have hvalues : e.values = e'.values := by
        rw [← values_nameless, h, values_nameless]
      have hguard : Guard.text e.constants = Guard.text e'.constants := by
        rw [← Guard.text_map_nameless, hconstants, Guard.text_map_nameless]
      obtain ⟨g, hg, hshape⟩ := he.exists_codeShape hne o
      obtain ⟨g', hg', hshape'⟩ := he'.exists_codeShape (mt hnil.2 hne) o
      have hsame : g.codeShape = g'.codeShape := by
        rw [hshape, hshape', hvalues]
      obtain ⟨hsize, hdisplay, hlookup⟩ := CodeShape.mk.inj hsame
      refine .inr ⟨g, g', hg, hg', hguard, ⟨_, text_of_generate hg⟩, ⟨_, text_of_generate hg'⟩,
        hsize, hdisplay, hlookup, fun v => ?_⟩
      rw [he.isSome_name?_iff hg, he'.isSome_name?_iff hg', hvalues]

end Enumeration

/-! ## Conversion -/

/-- Up to its name, a constant becomes the same under any policy. -/
theorem DeclaredConstant.map_nameless_resolve (c : DeclaredConstant) (typeName : String)
    (kind : Option Kind) (policy policy' : NamingPolicy) :
    (c.resolve typeName kind policy).map Constant.nameless
      = (c.resolve typeName kind policy').map Constant.nameless := by
  rw [resolve, resolve]
  cases c.integer? kind with
  | none => rfl
  | some n => rfl

namespace DeclaredType

variable {t : DeclaredType}

/-- Without names, a type is converted to the same by every policy, or refused with one error. -/
theorem map_nameless_enumeration (t : DeclaredType) (policy policy' : NamingPolicy) :
    (t.enumeration policy).map Enumeration.nameless
      = (t.enumeration policy').map Enumeration.nameless := by
  have hsteps : ∀ p : NamingPolicy, (t.enumeration p).map Enumeration.nameless
      = ((t.constants.filter (!·.isBlank)).mapM fun c : DeclaredConstant =>
          (c.resolve t.name (Kind.ofText? t.kind) p).map Constant.nameless).map
        (Enumeration.mk t.name t.kind) := by
    intro p
    rw [← map_mapM, enumeration]
    cases (t.constants.filter (!·.isBlank)).mapM (·.resolve t.name (Kind.ofText? t.kind) p) <;> rfl
  rw [hsteps, hsteps]
  simp only [DeclaredConstant.map_nameless_resolve _ _ _ policy policy']

/-- Whether a type is refused does not depend on the policy. -/
theorem fault?_policy (t : DeclaredType) (policy policy' : NamingPolicy) :
    t.fault? policy = t.fault? policy' := by
  have h := t.map_nameless_enumeration policy policy'
  rw [fault?, fault?]
  cases he : t.enumeration policy with
  | ok e =>
    rw [he] at h
    obtain ⟨e', he', -⟩ := map_eq_ok_iff.1 h.symm
    rw [he']
  | error err =>
    rw [he] at h
    rw [map_eq_error_iff.1 h.symm]

end DeclaredType

namespace Manifest

variable {m : Manifest} {requested : List String}

/-- Up to their names, the types are those that can be converted. -/
theorem map_nameless_types_resolve (m : Manifest) (requested : List String) (p : NamingPolicy) :
    (m.resolve requested p).types.map Enumeration.nameless = (m.selected requested).filterMap
      fun t => ((t.enumeration p).map Enumeration.nameless).toOption := by
  rw [types_resolve, List.map_filterMap]
  refine List.filterMap_congr fun t _ => ?_
  cases t.enumeration p <;> rfl

/-- What a type of an integer kind is converted to has what the generator relies on. -/
theorem fits_of_mem_resolve {e : Enumeration} {policy : NamingPolicy}
    (h : e ∈ (m.resolve requested policy).types) (hkind : Kind.ofText? e.kind = some kind) :
    e.Fits kind := by
  rw [types_resolve, List.mem_filterMap] at h
  obtain ⟨t, -, ht⟩ := h
  have he := toOption_eq_some_iff.1 ht
  rw [DeclaredType.kind_enumeration he] at hkind
  exact DeclaredType.fits_of_enumeration hkind he

/-- Whatever two policies there are, the errors are the same, the types are the same up to the names
of their constants, and so is the code of each type: it is refused with one error, or both texts
begin with the same guard, have the same size and shapes, and show the same numbers by a name. -/
theorem resolve_policy (m : Manifest) (requested : List String) (o : Options)
    (policy policy' : NamingPolicy) :
    (m.resolve requested policy).errors = (m.resolve requested policy').errors
      ∧ List.Forall₂ (fun e e' => e.nameless = e'.nameless
          ∧ ((∃ err, e.generate o = .error err ∧ e'.generate o = .error err)
            ∨ ∃ g g', e.generate o = .ok g ∧ e'.generate o = .ok g'
              ∧ Guard.text e.constants = Guard.text e'.constants
              ∧ (∃ rest, g.text = Guard.text e.constants ++ rest)
              ∧ (∃ rest', g'.text = Guard.text e'.constants ++ rest')
              ∧ g.size = g'.size
              ∧ g.display.shape = g'.display.shape
              ∧ g.lookup.map (·.plan.shape) = g'.lookup.map (·.plan.shape)
              ∧ ∀ v, (g.display.name? v).isSome ↔ (g'.display.name? v).isSome))
        (m.resolve requested policy).types (m.resolve requested policy').types := by
  constructor
  · rw [errors_resolve, errors_resolve]
    simp only [DeclaredType.fault?_policy _ policy policy']
  · have hsame : (m.resolve requested policy).types.map Enumeration.nameless
        = (m.resolve requested policy').types.map Enumeration.nameless := by
      rw [map_nameless_types_resolve, map_nameless_types_resolve]
      simp only [DeclaredType.map_nameless_enumeration _ policy policy']
    have hpairs : List.Forall₂ (fun e e' => e.nameless = e'.nameless)
        (m.resolve requested policy).types (m.resolve requested policy').types := by
      rwa [← List.forall₂_eq_eq_eq, List.forall₂_map_left_iff, List.forall₂_map_right_iff] at hsame
    have hfits : ∀ e ∈ (m.resolve requested policy).types, ∀ kind,
        Kind.ofText? e.kind = some kind → e.Fits kind :=
      fun e he kind => fits_of_mem_resolve he
    refine ((List.forall₂_and_left _ _).2 ⟨hfits, hpairs⟩).imp fun e e' h => ⟨h.2, ?_⟩
    exact Enumeration.generate_of_nameless_eq h.2 h.1 o

end Manifest

end EnumNames
