import EnumNames.Manifest.Resolve
import EnumNames.Proofs.Except
import EnumNames.Proofs.MemberSet

/-!
# What a declared type is converted to

A type of an integer kind is converted if each of its constants that has a name has a number of the
kind. The numbers go through patterns of 64 bits and come out as they were. If some constant is at
fault, the first one of them is named.

* `DeclaredConstant.Fits`: the number of a constant is one of the kind.
* `DeclaredConstant.Becomes`: a constant and what it is converted to.
* `DeclaredType.fits_of_enumeration`: a converted type is one that code can be generated for.
* `DeclaredType.enumeration_exact`: what a type is converted to, or which error it is refused with.
-/

namespace EnumNames

variable {kind : Kind} {policy : NamingPolicy} {typeName : String}

theorem forall_mem_of_forall₂ {α β : Type} {R : α → β → Prop} {p : α → Prop} {l : List α}
    {l' : List β} (h : List.Forall₂ R l l') (hp : ∀ a b, R a b → p a) : ∀ a ∈ l, p a :=
  ((List.forall₂_and_left l l').1 (h.imp fun a b hab => ⟨hp a b hab, hab⟩)).1

/-! ## Constants -/

namespace DeclaredConstant

variable {c : DeclaredConstant} {d : Constant} {n : Int} {err : InputError}

/-- Whether the number of the constant is an integer of the kind. -/
def Fits (c : DeclaredConstant) (kind : Kind) : Prop :=
  ∃ n, c.number = .integer n ∧ kind.contains n

/-- The constant `d` that a constant of the type is converted to: it has the number and is read the
way of the kind; its texts are those that were declared, or else derived from the names and the
number. -/
structure Becomes (c : DeclaredConstant) (typeName : String) (kind : Kind) (policy : NamingPolicy)
    (d : Constant) : Prop where
  number_eq : c.number = .integer d.value
  contains_value : kind.contains d.value
  signed_eq : d.signed = kind.isSigned
  name_eq : d.name = c.displayName policy
  reference_eq : d.reference = c.reference.getD (typeName ++ "::" ++ c.name)
  canonical_eq : d.canonical = c.canonical.getD (toString d.value)

/-- The number of a constant is an integer if it was written as one and fits the kind. -/
theorem integer?_eq_some_iff :
    c.integer? (some kind) = some n ↔ c.number = .integer n ∧ kind.contains n := by
  rw [integer?]
  cases c.number with
  | float x => exact iff_of_false nofun nofun
  | integer m =>
    simp only [Option.all_some, Json.Number.integer.injEq, Option.ite_none_right_eq_some,
      Option.some.injEq]
    constructor
    · rintro ⟨hm, rfl⟩
      exact ⟨rfl, hm⟩
    · rintro ⟨rfl, hm⟩
      exact ⟨hm, rfl⟩

theorem integer?_eq_none_iff : c.integer? (some kind) = none ↔ ¬ c.Fits kind := by
  rw [Option.eq_none_iff_forall_ne_some, Fits, not_exists]
  exact forall_congr' fun n => not_congr integer?_eq_some_iff

/-- The number is reduced to 64 bits and read back without a change. -/
theorem becomes_constant (hnumber : c.number = .integer n) (hn : kind.contains n) :
    c.Becomes typeName kind policy (c.constant typeName (some kind) policy n) := by
  have hvalue : (c.constant typeName (some kind) policy n).value = n :=
    Constant.value_ofInt hn (c.displayName policy) (c.reference.getD (typeName ++ "::" ++ c.name))
  have hdecimal : (c.constant typeName (some kind) policy n).canonical
      = c.canonical.getD (toString (c.constant typeName (some kind) policy n).value) := rfl
  exact ⟨by rw [hvalue, hnumber], by rwa [hvalue], rfl, rfl, rfl, hdecimal⟩

/-- A constant is converted to one constant only: value and sign determine the pattern. -/
theorem Becomes.eq (h : c.Becomes typeName kind policy d) {d' : Constant}
    (h' : c.Becomes typeName kind policy d') : d = d' := by
  have hvalue : d.value = d'.value :=
    Json.Number.integer.inj (h.number_eq.symm.trans h'.number_eq)
  have hsigned : d.signed = d'.signed := h.signed_eq.trans h'.signed_eq.symm
  -- patterns of one sign are read as different numbers if they differ
  have hbits : d.bits = d'.bits := (Constant.value_inj hsigned).1 hvalue
  have hname := h.name_eq.trans h'.name_eq.symm
  have hreference := h.reference_eq.trans h'.reference_eq.symm
  have hcanonical : d.canonical = d'.canonical := by
    rw [h.canonical_eq, h'.canonical_eq, hvalue]
  cases d
  cases d'
  simp only [Constant.mk.injEq]
  exact ⟨hname, hreference, hbits, hsigned, hcanonical⟩

/-- A constant is converted to what it becomes. -/
theorem resolve_eq_ok_iff :
    c.resolve typeName (some kind) policy = .ok d ↔ c.Becomes typeName kind policy d := by
  rw [resolve]
  constructor
  · intro h
    split at h
    · next n hn =>
      obtain ⟨hnumber, hn⟩ := integer?_eq_some_iff.1 hn
      rw [← Except.ok.inj h]
      exact becomes_constant hnumber hn
    · exact nomatch h
  · intro h
    have hinteger := integer?_eq_some_iff.2 ⟨h.number_eq, h.contains_value⟩
    rw [hinteger]
    exact congrArg Except.ok ((becomes_constant h.number_eq h.contains_value).eq h)

/-- A constant becomes something if its number fits the kind. -/
theorem exists_becomes_iff : (∃ d, c.Becomes typeName kind policy d) ↔ c.Fits kind := by
  constructor
  · rintro ⟨d, h⟩
    exact ⟨d.value, h.number_eq, h.contains_value⟩
  · rintro ⟨n, hnumber, hn⟩
    exact ⟨_, becomes_constant hnumber hn⟩

/-- A constant is refused if its number does not fit, with the text of the number. -/
theorem resolve_eq_error_iff : c.resolve typeName (some kind) policy = .error err
    ↔ ¬ c.Fits kind ∧ err = .valueOutOfRange typeName c.name c.number.text kind := by
  rw [resolve, ← integer?_eq_none_iff]
  cases c.integer? (some kind) with
  | some n => exact iff_of_false nofun nofun
  | none =>
    rw [Except.error.injEq, eq_comm]
    exact (and_iff_right rfl).symm

end DeclaredConstant

/-! ## Types -/

namespace DeclaredType

variable {t : DeclaredType} {e : Enumeration} {err : InputError}

/-- The constants that have a name; the others are left out. -/
def named (t : DeclaredType) : List DeclaredConstant :=
  t.constants.filter (·.name ≠ "_")

/-- The constants that are converted are those that are not called `_`. -/
theorem mem_named {c : DeclaredConstant} : c ∈ t.named ↔ c ∈ t.constants ∧ c.name ≠ "_" := by
  rw [named, List.mem_filter, decide_eq_true_eq]

/-- A type of a known kind is converted constant by constant. -/
theorem enumeration_eq (hkind : Kind.ofText? t.kind = some kind) (policy : NamingPolicy) :
    t.enumeration policy
      = t.named.mapM (·.resolve t.name (some kind) policy) >>= fun constants =>
        .ok ⟨t.name, t.kind, constants⟩ := by
  have hnamed : t.constants.filter (!·.isBlank) = t.named := by
    refine List.filter_congr fun c _ => ?_
    rw [DeclaredConstant.isBlank, decide_not, beq_eq_decide]
  rw [enumeration, hkind, hnamed]
  rfl

/-- A type is converted to the constants that its own become, in their order. -/
theorem enumeration_eq_ok_iff (hkind : Kind.ofText? t.kind = some kind) :
    t.enumeration policy = .ok e ↔ e.name = t.name ∧ e.kind = t.kind
      ∧ List.Forall₂ (fun c d => c.Becomes t.name kind policy d) t.named e.constants := by
  simp only [enumeration_eq hkind, bind_eq_ok_iff, mapM_eq_ok_iff,
    DeclaredConstant.resolve_eq_ok_iff]
  constructor
  · rintro ⟨constants, hconstants, h⟩
    rw [← Except.ok.inj h]
    exact ⟨rfl, rfl, hconstants⟩
  · rintro ⟨hname, hkind, hconstants⟩
    exact ⟨e.constants, hconstants, by rw [← hname, ← hkind]⟩

/-- The error about a type is that of its first constant at fault. -/
theorem enumeration_eq_error_iff (hkind : Kind.ofText? t.kind = some kind) :
    t.enumeration policy = .error err ↔ ∃ before c after, t.constants = before ++ c :: after
      ∧ (∀ b ∈ before, b.name ≠ "_" → b.Fits kind) ∧ c.name ≠ "_" ∧ ¬ c.Fits kind
      ∧ err = .valueOutOfRange t.name c.name c.number.text kind := by
  -- first among the constants with a name, which are those that are converted
  have hsteps : t.enumeration policy = .error err ↔ ∃ before c after,
      t.named = before ++ c :: after ∧ (∀ b ∈ before, b.Fits kind) ∧ ¬ c.Fits kind
        ∧ err = .valueOutOfRange t.name c.name c.number.text kind := by
    have hok : ∀ constants : List Constant,
        (Except.ok ⟨t.name, t.kind, constants⟩ : Except InputError Enumeration) ≠ .error err :=
      fun _ => nofun
    simp only [enumeration_eq hkind, bind_eq_error_iff, hok, and_false, exists_false, or_false,
      mapM_eq_error_iff, DeclaredConstant.resolve_eq_ok_iff, DeclaredConstant.exists_becomes_iff,
      DeclaredConstant.resolve_eq_error_iff]
  rw [hsteps]
  constructor
  · rintro ⟨before, c, after, hnamed, hbefore, hc, rfl⟩
    -- between the constants with a name stand those that are left out
    obtain ⟨front, back, hconstants, rfl, hback⟩ := List.filter_eq_append_iff.1 hnamed
    obtain ⟨blank, after, rfl, hblank, hname, -⟩ := List.filter_eq_cons_iff.1 hback
    rw [← List.append_assoc] at hconstants
    refine ⟨front ++ blank, c, after, hconstants, fun b hb hbname => ?_,
      of_decide_eq_true hname, hc, rfl⟩
    rcases List.mem_append.1 hb with hb | hb
    · exact hbefore b (List.mem_filter.2 ⟨hb, decide_eq_true hbname⟩)
    · exact absurd (decide_eq_true hbname) (hblank b hb)
  · rintro ⟨before, c, after, hconstants, hbefore, hname, hc, rfl⟩
    refine ⟨before.filter (·.name ≠ "_"), c, after.filter (·.name ≠ "_"), ?_, fun b hb => ?_, hc,
      rfl⟩
    · have hkept : decide (c.name ≠ "_") := decide_eq_true hname
      rw [named, hconstants, List.filter_append, List.filter_cons, if_pos hkept]
    · obtain ⟨hb, hbname⟩ := List.mem_filter.1 hb
      exact hbefore b hb (of_decide_eq_true hbname)

/-- A type is converted if no constant with a name is at fault. -/
theorem exists_enumeration_iff (hkind : Kind.ofText? t.kind = some kind) :
    (∃ e, t.enumeration policy = .ok e) ↔ ∀ c ∈ t.constants, c.name ≠ "_" → c.Fits kind := by
  constructor
  · rintro ⟨e, he⟩ c hc hname
    obtain ⟨-, -, hconstants⟩ := (enumeration_eq_ok_iff hkind).1 he
    have hfits : ∀ c ∈ t.named, c.Fits kind :=
      forall_mem_of_forall₂ hconstants fun c d h => DeclaredConstant.exists_becomes_iff.1 ⟨d, h⟩
    exact hfits c (mem_named.2 ⟨hc, hname⟩)
  · intro hall
    cases he : t.enumeration policy with
    | ok e => exact ⟨e, rfl⟩
    | error err =>
      obtain ⟨before, c, after, hconstants, -, hname, hc, -⟩ := (enumeration_eq_error_iff hkind).1 he
      have hmem : c ∈ t.constants := by
        rw [hconstants]
        exact List.mem_append_right before List.mem_cons_self
      exact absurd (hall c hmem hname) hc

/-- What a type of an integer kind is converted to has what the generator relies on. -/
theorem fits_of_enumeration (hkind : Kind.ofText? t.kind = some kind)
    (he : t.enumeration policy = .ok e) : e.Fits kind := by
  obtain ⟨-, hkind', hconstants⟩ := (enumeration_eq_ok_iff hkind).1 he
  have hmade : List.Forall₂ (fun d c => c.Becomes t.name kind policy d) e.constants t.named :=
    hconstants.flip
  exact ⟨hkind' ▸ hkind, forall_mem_of_forall₂ hmade fun d c h => h.signed_eq,
    forall_mem_of_forall₂ hmade fun d c h => h.contains_value⟩

/-- A type of an integer kind is converted exactly if each constant that has a name has an integer
number of the kind. It then has one constant for each of these, in order, with the same number and
the sign of the kind, so that equal numbers are equal patterns; and else the error names the first
constant at fault. Constants without a name do no harm. -/
theorem enumeration_exact (hkind : Text.trim t.kind = kind.name) (policy : NamingPolicy) :
    ((∃ e, t.enumeration policy = .ok e)
        ↔ ∀ c ∈ t.constants, c.name ≠ "_" → c.Fits kind)
      ∧ (∀ e, t.enumeration policy = .ok e → e.name = t.name ∧ e.kind = t.kind
        ∧ List.Forall₂ (fun c d => c.Becomes t.name kind policy d)
          (t.constants.filter (·.name ≠ "_")) e.constants
        ∧ ∀ a ∈ e.constants, ∀ b ∈ e.constants, a.compareValue b = .eq ↔ a.bits = b.bits)
      ∧ ∀ err, t.enumeration policy = .error err ↔ ∃ before c after,
        t.constants = before ++ c :: after ∧ (∀ b ∈ before, b.name ≠ "_" → b.Fits kind)
        ∧ c.name ≠ "_" ∧ ¬ c.Fits kind
        ∧ err = .valueOutOfRange t.name c.name c.number.text kind := by
  have hkind' := Kind.ofText?_eq_some_iff.2 hkind
  refine ⟨exists_enumeration_iff hkind', fun e he => ?_, fun err => enumeration_eq_error_iff hkind'⟩
  obtain ⟨hname, hkinds, hconstants⟩ := (enumeration_eq_ok_iff hkind').1 he
  refine ⟨hname, hkinds, hconstants, fun a ha b hb => ?_⟩
  have huniform := (fits_of_enumeration hkind' he).isUniform
  rw [Constant.compareValue, Std.LawfulEqOrd.compare_eq_iff_eq]
  exact Constant.value_inj (huniform a ha b hb)

/-- A type with the least and the greatest number of its kind and, without a name, a fraction. -/
def edgeType : DeclaredType :=
  ⟨"Edge", " i64\n", [{ name := "Most", number := .integer 0x7fffffffffffffff },
    { name := "_", number := .float ⟨false, ⟨Decimal.twoPow 52, -53⟩⟩ },
    { name := "Least", number := .integer (-0x8000000000000000), canonical := some "i64::MIN" }]⟩

/-- A type with two numbers beyond its kind, and a greater one that has no name. -/
def narrowType : DeclaredType :=
  ⟨"Narrow", "i8", [{ name := "_", number := .integer 1000 },
    { name := "Most", number := .integer 127 }, { name := "Over", number := .integer 128 },
    { name := "Under", number := .integer (-129) }]⟩

/-- The two ends of the range of 64 bits, and a number that is one too large. -/
theorem enumeration_exact_edgeType :
    (∃ e, edgeType.enumeration {} = .ok e
        ∧ e.constants.map Constant.value = [0x7fffffffffffffff, -0x8000000000000000])
      ∧ narrowType.enumeration {} = .error (.valueOutOfRange "Narrow" "Over" "128" .i8) := by
  constructor
  · have hkind : Text.trim edgeType.kind = Kind.i64.name := by decide +kernel
    obtain ⟨hok, hconstants, -⟩ := enumeration_exact hkind {}
    obtain ⟨e, he⟩ := hok.2 (by
      intro c hc hname
      simp only [edgeType, List.mem_cons, List.not_mem_nil, or_false] at hc
      rcases hc with rfl | rfl | rfl
      · exact ⟨_, rfl, by decide⟩
      · exact absurd rfl hname
      · exact ⟨_, rfl, by decide⟩)
    obtain ⟨-, -, hbecomes, -⟩ := hconstants e he
    obtain ⟨most, rest, hmost, hrest, heq⟩ := List.forall₂_cons_left_iff.1 hbecomes
    obtain ⟨least, _, hleast, hnil, rfl⟩ := List.forall₂_cons_left_iff.1 hrest
    obtain rfl := List.forall₂_nil_left_iff.1 hnil
    refine ⟨e, he, ?_⟩
    rw [heq, List.map_cons, List.map_cons, ← Json.Number.integer.inj hmost.number_eq,
      ← Json.Number.integer.inj hleast.number_eq]
    rfl
  · have hkind : Text.trim narrowType.kind = Kind.i8.name := by decide
    obtain ⟨-, -, hfault⟩ := enumeration_exact hkind {}
    refine (hfault _).2 ⟨narrowType.constants.take 2, narrowType.constants[2],
      narrowType.constants.drop 3, rfl, ?_, by decide, ?_, rfl⟩
    · intro b hb hname
      simp only [narrowType, List.take_succ_cons, List.take_zero, List.mem_cons, List.not_mem_nil,
        or_false] at hb
      rcases hb with rfl | rfl
      · exact absurd rfl hname
      · exact ⟨_, rfl, by decide⟩
    · rintro ⟨n, hn, hcontains⟩
      rw [← Json.Number.integer.inj hn] at hcontains
      exact absurd hcontains (by decide)

end DeclaredType

end EnumNames
