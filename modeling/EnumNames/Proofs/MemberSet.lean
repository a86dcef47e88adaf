import EnumNames.Member
import EnumNames.Proofs.Kind

/-!
# What a member set holds

Sorting keeps the order of declaration among equal values, and dropping repeats keeps the first of
each stretch. Together they leave one member for each value, the one declared first.

* `filter_mergeSort`: what a stable sort cannot tell apart it leaves in its order.
* `find?_keepFirst`, `pairwise_keepFirst`: dropping repeats loses no first hit, and turns an order
  into a strict one.
* `Enumeration.Fits`: what conversion guarantees of an enumeration.
* `IsUniform.pairwise_distinctMembers`, `IsUniform.mem_distinctMembers`: a member set in terms of the
  constants.
* `memberSet_firstDeclared`: when there is a member set, and what it holds.
-/

namespace EnumNames

/-! ## Sorting -/

/-- Entries that may stand in either order are not moved past one another. -/
theorem filter_mergeSort {α : Type} {le : α → α → Bool} {p : α → Bool} {l : List α}
    (htrans : ∀ a b c, le a b → le b c → le a c) (htotal : ∀ a b, le a b || le b a)
    (hp : ∀ a ∈ l, ∀ b ∈ l, p a → p b → le a b) :
    (l.mergeSort le).filter p = l.filter p := by
  have hpair : (l.filter p).Pairwise fun a b => le a b := by
    rw [List.pairwise_filter]
    exact List.pairwise_of_forall_mem_list hp
  have hsub := (List.sublist_mergeSort htrans htotal hpair List.filter_sublist).filter p
  rw [List.filter_filter] at hsub
  simp only [Bool.and_self] at hsub
  exact (hsub.eq_of_length ((List.mergeSort_perm l le).filter p).length_eq.symm).symm

/-- The first hit among entries that may stand in either order is the same after sorting. -/
theorem find?_mergeSort {α : Type} {le : α → α → Bool} {p : α → Bool} {l : List α}
    (htrans : ∀ a b c, le a b → le b c → le a c) (htotal : ∀ a b, le a b || le b a)
    (hp : ∀ a ∈ l, ∀ b ∈ l, p a → p b → le a b) :
    (l.mergeSort le).find? p = l.find? p := by
  rw [← List.head?_filter, filter_mergeSort htrans htotal hp, List.head?_filter]

/-! ## Dropping repeats -/

section KeepFirst

variable {α : Type} {repeats : α → α → Bool}

theorem sublist_keepFirstAfter (kept : α) (l : List α) :
    (keepFirstAfter repeats kept l).Sublist (kept :: l) := by
  induction l generalizing kept with
  | nil => exact List.Sublist.refl _
  | cons a l ih =>
    rw [keepFirstAfter]
    split
    · exact (ih kept).trans ((List.sublist_cons_self a l).cons_cons kept)
    · exact (ih a).cons_cons kept

theorem sublist_keepFirst (l : List α) : (keepFirst repeats l).Sublist l := by
  cases l with
  | nil => exact List.Sublist.refl _
  | cons a l => exact sublist_keepFirstAfter a l

theorem keepFirst_ne_nil {l : List α} (h : l ≠ []) : keepFirst repeats l ≠ [] := by
  have hafter : ∀ (kept : α) (l : List α), keepFirstAfter repeats kept l ≠ [] := by
    intro kept l
    induction l generalizing kept with
    | nil => simp [keepFirstAfter]
    | cons a l ih =>
      rw [keepFirstAfter]
      split
      · exact ih kept
      · simp
  cases l with
  | nil => exact absurd rfl h
  | cons a l => exact hafter a l

/-- Where repeats cannot be told apart, dropping them does not change what is found. -/
theorem find?_keepFirstAfter {p : α → Bool} (kept : α) (l : List α)
    (h : ∀ a ∈ kept :: l, ∀ b ∈ kept :: l, repeats a b → p a = p b) :
    (keepFirstAfter repeats kept l).find? p = (kept :: l).find? p := by
  induction l generalizing kept with
  | nil => rfl
  | cons a l ih =>
    rw [keepFirstAfter]
    split
    · next hr =>
      rw [ih kept fun b hb c hc => h b (by grind) c (by grind)]
      have hpa := h kept (by simp) a (by simp) hr
      by_cases hk : p kept
      · rw [List.find?_cons_of_pos hk, List.find?_cons_of_pos hk]
      · have ha : ¬p a := by rw [← hpa]; exact hk
        rw [List.find?_cons_of_neg hk, List.find?_cons_of_neg hk, List.find?_cons_of_neg ha]
    · rw [List.find?_cons, List.find?_cons, ih a fun b hb c hc => h b (by grind) c (by grind)]

/-- A dropped entry is never the first of its sort, so that no first hit is lost. -/
theorem find?_keepFirst {p : α → Bool} {l : List α}
    (h : ∀ a ∈ l, ∀ b ∈ l, repeats a b → p a = p b) :
    (keepFirst repeats l).find? p = l.find? p := by
  cases l with
  | nil => rfl
  | cons a l => exact find?_keepFirstAfter a l h

/-- Without repeats, a sorted list is strictly sorted. -/
theorem pairwise_keepFirstAfter {le lt : α → α → Prop} (kept : α) (l : List α)
    (hlt : ∀ a ∈ kept :: l, ∀ b ∈ kept :: l, le a b → ¬repeats a b → lt a b)
    (htrans : ∀ a b c, lt a b → le b c → lt a c) (hl : (kept :: l).Pairwise le) :
    (keepFirstAfter repeats kept l).Pairwise lt := by
  induction l generalizing kept with
  | nil => exact List.pairwise_singleton lt kept
  | cons a l ih =>
    rw [keepFirstAfter]
    split
    · exact ih kept (fun b hb c hc => hlt b (by grind) c (by grind))
        (hl.sublist ((List.sublist_cons_self a l).cons_cons kept))
    · next hr =>
      have hka : lt kept a :=
        hlt kept (by simp) a (by simp) (List.rel_of_pairwise_cons hl (by simp)) hr
      refine List.Pairwise.cons (fun b hb => ?_)
        (ih a (fun b hb c hc => hlt b (by grind) c (by grind)) hl.tail)
      rcases List.mem_cons.1 ((sublist_keepFirstAfter a l).subset hb) with rfl | hb
      · exact hka
      · exact htrans kept a b hka (List.rel_of_pairwise_cons hl.tail hb)

/-- Of entries in order, those that are kept are in strict order. -/
theorem pairwise_keepFirst {le lt : α → α → Prop} {l : List α}
    (hlt : ∀ a ∈ l, ∀ b ∈ l, le a b → ¬repeats a b → lt a b)
    (htrans : ∀ a b c, lt a b → le b c → lt a c) (hl : l.Pairwise le) :
    (keepFirst repeats l).Pairwise lt := by
  cases l with
  | nil => exact List.Pairwise.nil
  | cons a l => exact pairwise_keepFirstAfter a l hlt htrans hl

end KeepFirst

/-! ## Values and patterns -/

/-- Of equal sign, constants with the same value have the same bits. -/
theorem Constant.value_inj {a b : Constant} (h : a.signed = b.signed) :
    a.value = b.value ↔ a.bits = b.bits := by
  rw [Constant.value, Constant.value, h]
  cases b.signed with
  | false => rw [if_neg Bool.false_ne_true, if_neg Bool.false_ne_true, Int.ofNat_inj,
      BitVec.toNat_inj]
  | true => rw [if_pos rfl, if_pos rfl, BitVec.toInt_inj]

/-- What conversion guarantees of an enumeration: its kind is an integer kind, its constants are
read the way of the kind, and their values lie in it. -/
structure Enumeration.Fits (e : Enumeration) (kind : Kind) : Prop where
  ofText?_kind : Kind.ofText? e.kind = some kind
  signed_eq : ∀ c ∈ e.constants, c.signed = kind.isSigned
  contains_value : ∀ c ∈ e.constants, kind.contains c.value

/-- An enumeration with both ends of its kind, a value that is declared twice, an empty name and a
name that two values share. -/
def gauge : Enumeration :=
  ⟨"Gauge", " i64 ",
    [.ofInt true "Most" "Gauge::MOST" 9223372036854775807, .ofInt true "Zero" "Gauge::ZERO" 0,
      .ofInt true "" "Gauge::LOW" (-1), .ofInt true "Nil" "Gauge::NIL" 0,
      .ofInt true "Most" "Gauge::LEAST" (-9223372036854775808)]⟩

/-- The constants of the example fit 64 bits. -/
theorem fits_gauge : gauge.Fits .i64 :=
  ⟨by decide, by decide, by decide⟩

namespace Enumeration

variable {e : Enumeration} {kind : Kind}

/-! ## Declared members -/

/-- A member is a constant with the place it was declared at. -/
theorem mem_declared {m : Member} : m ∈ e.declared ↔ e.constants[m.position]? = some m.constant := by
  simp only [declared, List.mem_map, Prod.exists, List.mk_mem_zipIdx_iff_getElem?]
  constructor
  · rintro ⟨c, i, h, rfl⟩
    exact h
  · intro h
    exact ⟨m.constant, m.position, h, rfl⟩

theorem constant_mem_of_mem_declared {m : Member} (h : m ∈ e.declared) :
    m.constant ∈ e.constants :=
  List.mem_of_getElem? (mem_declared.1 h)

/-- Without their places, the members are the constants. -/
theorem map_constant_declared : e.declared.map Member.constant = e.constants := by
  rw [declared, List.map_map]
  exact List.zipIdx_map_fst 0 e.constants

/-- Whether all constants are read the same way. Which values their kind has does not matter. -/
def IsUniform (e : Enumeration) : Prop :=
  ∀ c ∈ e.constants, ∀ d ∈ e.constants, c.signed = d.signed

/-- Constants of one sign are uniform. -/
theorem isUniform_of_signed_eq {signed : Bool} (h : ∀ c ∈ e.constants, c.signed = signed) :
    e.IsUniform :=
  fun c hc d hd => (h c hc).trans (h d hd).symm

theorem Fits.isUniform (h : e.Fits kind) : e.IsUniform :=
  isUniform_of_signed_eq h.signed_eq

/-- Whether two declared members have the same pattern shows in their values. -/
theorem IsUniform.value_eq_iff (h : e.IsUniform) {a b : Member} (ha : a ∈ e.declared)
    (hb : b ∈ e.declared) : a.value = b.value ↔ a.constant.bits = b.constant.bits :=
  Constant.value_inj
    (h _ (constant_mem_of_mem_declared ha) _ (constant_mem_of_mem_declared hb))

/-! ## Distinct members -/

theorem valueLe_trans (a b c : Member) (hab : decide (a.value ≤ b.value))
    (hbc : decide (b.value ≤ c.value)) : decide (a.value ≤ c.value) := by
  rw [decide_eq_true_eq] at *
  exact Int.le_trans hab hbc

theorem valueLe_total (a b : Member) :
    decide (a.value ≤ b.value) || decide (b.value ≤ a.value) := by
  rw [Bool.or_eq_true, decide_eq_true_eq, decide_eq_true_eq]
  exact Int.le_total a.value b.value

/-- The declared members in the order of their values. -/
def sorted (e : Enumeration) : List Member :=
  e.declared.mergeSort fun a b => a.value ≤ b.value

/-- Of the sorted members, the first one of each value is kept. -/
theorem distinctMembers_eq :
    e.distinctMembers
      = keepFirst (fun kept later => kept.constant.bits == later.constant.bits) e.sorted := rfl

theorem mem_sorted {m : Member} : m ∈ e.sorted ↔ m ∈ e.declared :=
  List.mem_mergeSort

/-- Sorted members are in the order of their values. -/
theorem pairwise_sorted : e.sorted.Pairwise fun a b => a.value ≤ b.value := by
  rw [sorted]
  have h := List.pairwise_mergeSort valueLe_trans valueLe_total e.declared
  simpa only [decide_eq_true_eq] using h

/-- Sorting is stable: the first member of a value stays the first. -/
theorem find?_sorted (v : Int) :
    e.sorted.find? (·.value = v) = e.declared.find? (·.value = v) := by
  refine find?_mergeSort valueLe_trans valueLe_total fun a _ b _ ha hb => ?_
  rw [decide_eq_true_eq] at *
  omega

/-- What is kept was declared. -/
theorem mem_declared_of_mem_distinctMembers {m : Member} (h : m ∈ e.distinctMembers) :
    m ∈ e.declared :=
  mem_sorted.1 ((sublist_keepFirst e.sorted).subset h)

theorem distinctMembers_ne_nil (h : e.constants ≠ []) : e.distinctMembers ≠ [] := by
  have hlength : e.sorted.length = e.constants.length := by
    rw [sorted, List.length_mergeSort, ← List.length_map (f := Member.constant),
      map_constant_declared]
  have hsorted : e.sorted ≠ [] := by
    rw [← List.length_pos_iff, hlength, List.length_pos_iff]
    exact h
  exact keepFirst_ne_nil hsorted

/-- The values of a member set increase. -/
theorem IsUniform.pairwise_distinctMembers (h : e.IsUniform) :
    e.distinctMembers.Pairwise fun a b => a.value < b.value := by
  rw [distinctMembers_eq]
  refine pairwise_keepFirst (fun a ha b hb hle hr => ?_) (fun a b c => Int.lt_of_lt_of_le)
    pairwise_sorted
  -- repeats are told by pattern, the order is that of values
  rw [beq_iff_eq, ← h.value_eq_iff (mem_sorted.1 ha) (mem_sorted.1 hb)] at hr
  omega

/-- The member with a value is the one declared first. -/
theorem IsUniform.find?_distinctMembers (h : e.IsUniform) (v : Int) :
    e.distinctMembers.find? (·.value = v) = e.declared.find? (·.value = v) := by
  rw [distinctMembers_eq, find?_keepFirst, find?_sorted]
  intro a ha b hb hr
  rw [beq_iff_eq, ← h.value_eq_iff (mem_sorted.1 ha) (mem_sorted.1 hb)] at hr
  rw [hr]

/-- Among values that increase, the search for one finds the member that has it. -/
theorem find?_eq_some_of_mem {ms : List Member} (h : ms.Pairwise fun a b => a.value < b.value)
    {m : Member} (hm : m ∈ ms) : ms.find? (·.value = m.value) = some m := by
  induction ms with
  | nil => contradiction
  | cons m' ms ih =>
    rcases List.mem_cons.1 hm with rfl | hm
    · exact List.find?_cons_of_pos (by simp)
    · have hlt : m'.value < m.value := List.rel_of_pairwise_cons h hm
      rw [List.find?_cons_of_neg (by simp; omega), ih h.tail hm]

theorem getElem?_declared (e : Enumeration) (i : Nat) :
    e.declared[i]? = e.constants[i]?.map (Member.mk i) := by
  rw [declared, List.getElem?_map, List.getElem?_zipIdx, Option.map_map, Nat.zero_add]
  rfl

/-- Whether the constant at position `i` is the first one of its value. -/
def DeclaredFirst (e : Enumeration) (i : Nat) (c : Constant) : Prop :=
  e.constants[i]? = some c ∧ ∀ j d, j < i → e.constants[j]? = some d → d.value ≠ c.value

/-- Among the declared members, the search for a value ends at the constant declared first. -/
theorem find?_declared_eq_some {m : Member} :
    e.declared.find? (·.value = m.value) = some m ↔ e.DeclaredFirst m.position m.constant := by
  rw [List.find?_eq_some_iff_getElem]
  constructor
  · rintro ⟨-, i, hi, hget, hbefore⟩
    have hm := getElem?_declared e i
    rw [List.getElem?_eq_getElem hi, hget, eq_comm, Option.map_eq_some_iff] at hm
    obtain ⟨c, hc, rfl⟩ := hm
    refine ⟨hc, fun j d (hj : j < i) hd => ?_⟩
    have hdj := getElem?_declared e j
    rw [List.getElem?_eq_getElem (by omega), hd] at hdj
    have hne := hbefore j hj
    rw [Option.some.inj hdj, Bool.not_eq_true', decide_eq_false_iff_not] at hne
    exact hne
  · rintro ⟨hget, hbefore⟩
    have hm := getElem?_declared e m.position
    rw [hget] at hm
    obtain ⟨hi, hm⟩ := List.getElem?_eq_some_iff.1 hm
    refine ⟨by simp, m.position, hi, hm, fun j hj => ?_⟩
    have hdj := getElem?_declared e j
    rw [List.getElem?_eq_getElem (by omega), eq_comm, Option.map_eq_some_iff] at hdj
    obtain ⟨d, hd, hdj⟩ := hdj
    have hne : (Member.mk j d).value ≠ m.value := hbefore j d hj hd
    rw [← hdj]
    simpa using hne

/-- The members of a set are the constants that are the first of their value. -/
theorem IsUniform.mem_distinctMembers (h : e.IsUniform) {m : Member} :
    m ∈ e.distinctMembers ↔ e.DeclaredFirst m.position m.constant := by
  rw [← find?_declared_eq_some, ← h.find?_distinctMembers]
  exact ⟨find?_eq_some_of_mem h.pairwise_distinctMembers, List.mem_of_find?_eq_some⟩

/-- The members that are kept are the first ones of their values. -/
theorem Fits.mem_distinctMembers (h : e.Fits kind) {m : Member} :
    m ∈ e.distinctMembers ↔ e.DeclaredFirst m.position m.constant :=
  h.isUniform.mem_distinctMembers

/-- The values of the members are those of the constants. -/
theorem IsUniform.exists_mem_distinctMembers_iff (h : e.IsUniform) {v : Int} :
    (∃ m ∈ e.distinctMembers, m.value = v) ↔ ∃ c ∈ e.constants, c.value = v := by
  constructor
  · rintro ⟨m, hm, hv⟩
    exact ⟨m.constant, constant_mem_of_mem_declared (mem_declared_of_mem_distinctMembers hm), hv⟩
  · rintro ⟨c, hc, hv⟩
    obtain ⟨i, hi⟩ := List.mem_iff_getElem?.1 hc
    have hsome : (e.distinctMembers.find? (·.value = v)).isSome := by
      rw [h.find?_distinctMembers, List.find?_isSome]
      exact ⟨⟨i, c⟩, mem_declared.2 hi, decide_eq_true hv⟩
    obtain ⟨m, hm⟩ := Option.isSome_iff_exists.1 hsome
    exact ⟨m, List.mem_of_find?_eq_some hm, by simpa using List.find?_some hm⟩

/-- No value is lost. -/
theorem Fits.exists_mem_distinctMembers_iff (h : e.Fits kind) {v : Int} :
    (∃ m ∈ e.distinctMembers, m.value = v) ↔ ∃ c ∈ e.constants, c.value = v :=
  h.isUniform.exists_mem_distinctMembers_iff

/-! ## Member sets -/

theorem memberSet_eq_ok (hkind : Kind.ofText? e.kind = some kind) (hne : e.constants ≠ []) :
    e.memberSet = .ok ⟨e.name, kind, e.distinctMembers⟩ := by
  rw [memberSet, hkind]
  simp [hne]

/-- The kind is judged first; the constants matter only if it is an integer kind. -/
theorem memberSet_eq_error_iff {err : InputError} : e.memberSet = .error err ↔
    Kind.ofText? e.kind = none ∧ err = .unsupportedKind e.name e.kind
      ∨ (Kind.ofText? e.kind).isSome ∧ e.constants = [] ∧ err = .noConstants e.name := by
  cases hkind : Kind.ofText? e.kind with
  | none =>
    have herror : e.memberSet = .error (.unsupportedKind e.name e.kind) := by
      rw [memberSet, hkind]
    simp [herror, eq_comm]
  | some kind =>
    by_cases hnil : e.constants = []
    · have herror : e.memberSet = .error (.noConstants e.name) := by
        simp [memberSet, hkind, hnil]
      simp [herror, hnil, eq_comm]
    · simp [memberSet_eq_ok hkind hnil, hnil]

/-- There is a member set for a known kind and at least one constant. -/
theorem memberSet_eq_ok_iff {set : MemberSet} : e.memberSet = .ok set
    ↔ ∃ kind, Kind.ofText? e.kind = some kind ∧ e.constants ≠ []
      ∧ set = ⟨e.name, kind, e.distinctMembers⟩ := by
  constructor
  · intro h
    have hnone : ∀ err, e.memberSet ≠ .error err := by simp [h]
    cases hkind : Kind.ofText? e.kind with
    | none => exact absurd (memberSet_eq_error_iff.2 (.inl ⟨hkind, rfl⟩)) (hnone _)
    | some kind =>
      by_cases hnil : e.constants = []
      · exact absurd (memberSet_eq_error_iff.2 (.inr ⟨by simp [hkind], hnil, rfl⟩)) (hnone _)
      · rw [memberSet_eq_ok hkind hnil] at h
        exact ⟨kind, rfl, hnil, (Except.ok.inj h).symm⟩
  · rintro ⟨kind, hkind, hne, rfl⟩
    exact memberSet_eq_ok hkind hne

theorem Fits.memberSet_eq (h : e.Fits kind) (hne : e.constants ≠ []) :
    e.memberSet = .ok ⟨e.name, kind, e.distinctMembers⟩ :=
  memberSet_eq_ok h.ofText?_kind hne

theorem Fits.eq_of_memberSet (h : e.Fits kind) {set : MemberSet} (hset : e.memberSet = .ok set) :
    set = ⟨e.name, kind, e.distinctMembers⟩ := by
  obtain ⟨kind', hkind', -, rfl⟩ := memberSet_eq_ok_iff.1 hset
  rw [Option.some.inj (h.ofText?_kind.symm.trans hkind')]

/-- There is no member set exactly if the kind is no integer kind, which is judged first, or if there
are no constants. Else, if the constants are read the way of the kind, the values of the members
increase, they are the values that are declared, and each member is the first constant of its value
at its position; whether the values lie in the kind does not matter. -/
theorem memberSet_firstDeclared (e : Enumeration) :
    (∀ err, e.memberSet = .error err ↔
        (∀ kind : Kind, Text.trim e.kind ≠ kind.name) ∧ err = .unsupportedKind e.name e.kind
          ∨ (∃ kind : Kind, Text.trim e.kind = kind.name) ∧ e.constants = []
            ∧ err = .noConstants e.name)
      ∧ ∀ kind : Kind, Text.trim e.kind = kind.name → e.constants ≠ [] →
        (∀ c ∈ e.constants, c.signed = kind.isSigned) →
        ∃ members, e.memberSet = .ok ⟨e.name, kind, members⟩
          ∧ (members.Pairwise fun a b => a.value < b.value)
          ∧ (∀ v, (∃ m ∈ members, m.value = v) ↔ ∃ c ∈ e.constants, c.value = v)
          ∧ ∀ m ∈ members, e.DeclaredFirst m.position m.constant := by
  constructor
  · intro err
    have hsome : (Kind.ofText? e.kind).isSome ↔ ∃ kind : Kind, Text.trim e.kind = kind.name := by
      rw [Option.isSome_iff_exists]
      exact exists_congr fun kind => Kind.ofText?_eq_some_iff
    rw [memberSet_eq_error_iff, Kind.ofText?_eq_none_iff, hsome]
  · intro kind hkind hne hsigned
    have huniform : e.IsUniform := isUniform_of_signed_eq hsigned
    exact ⟨e.distinctMembers, memberSet_eq_ok (Kind.ofText?_eq_some_iff.2 hkind) hne,
      huniform.pairwise_distinctMembers, fun v => huniform.exists_mem_distinctMembers_iff,
      fun m hm => huniform.mem_distinctMembers.1 hm⟩

/-- Constants that do not lie in their kind; the greatest pattern is declared twice. -/
def oversize : Enumeration :=
  ⟨"Level", "u8", [.ofInt false "Top" "Level::TOP" 18446744073709551615,
    .ofInt false "Zero" "Level::ZERO" 0, .ofInt false "Last" "Level::LAST" 18446744073709551615]⟩

/-- A constant beyond its kind is kept, and an unknown kind is refused first. -/
theorem memberSet_firstDeclared_oversize :
    (∃ members, oversize.memberSet = .ok ⟨"Level", .u8, members⟩
        ∧ (members.Pairwise fun a b => a.value < b.value)
        ∧ ∃ m ∈ members, m.value = 18446744073709551615 ∧ m.position = 0)
      ∧ Enumeration.memberSet ⟨"Odd", "f32", []⟩ = .error (.unsupportedKind "Odd" "f32") := by
  constructor
  · obtain ⟨members, hset, hincreasing, hvalues, hfirst⟩ :=
      (memberSet_firstDeclared oversize).2 .u8 (by decide) (by decide) (by decide)
    obtain ⟨m, hm, hv⟩ := (hvalues 18446744073709551615).2
      ⟨.ofInt false "Top" "Level::TOP" 18446744073709551615, by decide, by decide⟩
    refine ⟨members, hset, hincreasing, m, hm, hv, Nat.eq_zero_of_not_pos fun hpos => ?_⟩
    -- the first constant of all has the value already
    have hconstant : m.constant.value = 18446744073709551615 := hv
    refine (hfirst m hm).2 0 _ hpos rfl ?_
    rw [hconstant]
    decide
  · refine ((memberSet_firstDeclared ⟨"Odd", "f32", []⟩).1 _).2 (.inl ⟨?_, rfl⟩)
    intro kind
    cases kind <;> decide

end Enumeration

end EnumNames
