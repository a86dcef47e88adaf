import EnumNames.Lookup.Plan
import EnumNames.Proofs.MemberSet

/-!
# Entries of a lookup plan

A plan has one entry for each name, in the order of names. Of the members that share a name, it is
the one declared first, because entries of one name are sorted by position before repeats are
dropped.

* `pairwise_distinctNames`: the names of the entries increase.
* `find?_distinctNames_eq_some`, `find?_distinctNames_eq_none`: the entry of a name has the least
  position of all members with the name.
-/

namespace EnumNames

open Std

/-! ## The order of entries -/

namespace LookupEntry

@[simp] theorem name_ofMember (m : Member) : (ofMember m).name = m.name := rfl

@[simp] theorem value_ofMember (m : Member) : (ofMember m).value = m.value := rfl

/-- The order of entries as a comparison by one key after the other. -/
def order : LookupEntry → LookupEntry → Ordering :=
  compareLex (compareOn LookupEntry.name) (compareOn LookupEntry.position)

instance : TransCmp order :=
  inferInstanceAs (TransCmp (compareLex _ _))

theorem le_eq (a b : LookupEntry) : le a b = (order a b).isLE := rfl

theorem le_trans (a b c : LookupEntry) (hab : le a b) (hbc : le b c) : le a c := by
  rw [le_eq] at *
  exact TransCmp.isLE_trans hab hbc

theorem le_total (a b : LookupEntry) : le a b || le b a := by
  rw [le_eq, le_eq, @OrientedCmp.eq_swap _ order]
  cases order b a <;> rfl

/-- Entries are ordered by name, then by position. -/
theorem le_iff {a b : LookupEntry} :
    le a b ↔ compare a.name b.name = .lt ∨ a.name = b.name ∧ a.position ≤ b.position := by
  rw [le, Ordering.isLE_then_iff_or, LawfulEqOrd.compare_eq_iff_eq, Nat.isLE_compare]

end LookupEntry

/-! ## One entry for each name -/

/-- The entries of all members in order. -/
def sortedEntries (members : List Member) : List LookupEntry :=
  (members.map LookupEntry.ofMember).mergeSort LookupEntry.le

/-- The sorted entries are those of the members. -/
theorem mem_sortedEntries {members : List Member} {x : LookupEntry} :
    x ∈ sortedEntries members ↔ ∃ m ∈ members, LookupEntry.ofMember m = x := by
  rw [sortedEntries, List.mem_mergeSort, List.mem_map]

/-- The sorted entries are in order. -/
theorem pairwise_sortedEntries (members : List Member) :
    (sortedEntries members).Pairwise fun a b => LookupEntry.le a b :=
  List.pairwise_mergeSort LookupEntry.le_trans LookupEntry.le_total _

/-- Of the sorted entries, the first one of each name is kept. -/
theorem distinctNames_eq (members : List Member) :
    distinctNames members = keepFirst (fun kept later => kept.name == later.name)
      (sortedEntries members) := rfl

/-- The names of the entries increase. -/
theorem pairwise_distinctNames (members : List Member) :
    (distinctNames members).Pairwise fun a b => compare a.name b.name = .lt := by
  have hle : (sortedEntries members).Pairwise fun a b => (compare a.name b.name).isLE := by
    refine (pairwise_sortedEntries members).imp fun h => ?_
    rcases LookupEntry.le_iff.1 h with hlt | ⟨heq, -⟩
    · rw [hlt]
      rfl
    · rw [heq]
      exact ReflOrd.isLE_rfl
  rw [distinctNames_eq]
  refine pairwise_keepFirst (fun a _ b _ hab hr => ?_)
    (fun a b c => TransCmp.lt_of_lt_of_isLE) hle
  rw [beq_iff_eq] at hr
  cases hc : compare a.name b.name with
  | lt => rfl
  | eq => exact absurd (LawfulEqOrd.eq_of_compare hc) hr
  | gt =>
    rw [hc] at hab
    contradiction

/-- What is kept was among the sorted entries. -/
theorem mem_sortedEntries_of_mem_distinctNames {members : List Member} {x : LookupEntry}
    (h : x ∈ distinctNames members) : x ∈ sortedEntries members :=
  (sublist_keepFirst (sortedEntries members)).subset h

/-- Leaving out later entries of a name does not change what is found. -/
theorem find?_distinctNames (members : List Member) (name : String) :
    (distinctNames members).find? (·.name == name)
      = (sortedEntries members).find? (·.name == name) := by
  rw [distinctNames_eq]
  refine find?_keepFirst fun a _ b _ hr => ?_
  rw [beq_iff_eq] at hr
  rw [hr]

/-- The entry of a name is that of a member with the name, and no such member was declared before
it. -/
theorem find?_distinctNames_eq_some {members : List Member} {name : String} {x : LookupEntry}
    (h : (distinctNames members).find? (·.name == name) = some x) :
    ∃ m ∈ members, LookupEntry.ofMember m = x ∧ m.name = name
      ∧ ∀ m' ∈ members, m'.name = name → m.position ≤ m'.position := by
  rw [find?_distinctNames, List.find?_eq_some_iff_append] at h
  obtain ⟨hname, before, after, heq, hbefore⟩ := h
  rw [beq_iff_eq] at hname
  have hx : x ∈ sortedEntries members := by rw [heq]; simp
  obtain ⟨m, hm, rfl⟩ := mem_sortedEntries.1 hx
  refine ⟨m, hm, rfl, hname, fun m' hm' hname' => ?_⟩
  have hm'' : LookupEntry.ofMember m' ∈ sortedEntries members := mem_sortedEntries.2 ⟨m', hm', rfl⟩
  have hsorted := pairwise_sortedEntries members
  rw [heq] at hm'' hsorted
  rcases List.mem_append.1 hm'' with hbef | hrest
  · have := hbefore _ hbef
    simp [hname'] at this
  · rcases List.mem_cons.1 hrest with hself | haft
    · have : m'.position = m.position := congrArg LookupEntry.position hself
      omega
    · have hle := List.rel_of_pairwise_cons (List.pairwise_append.1 hsorted).2.1 haft
      rcases LookupEntry.le_iff.1 hle with hlt | ⟨-, hpos⟩
      · rw [hname, LookupEntry.name_ofMember, hname', ReflOrd.compare_self] at hlt
        contradiction
      · exact hpos

/-- A name is not found if no member has it. -/
theorem find?_distinctNames_eq_none {members : List Member} {name : String} :
    (distinctNames members).find? (·.name == name) = none ↔ ∀ m ∈ members, m.name ≠ name := by
  rw [find?_distinctNames, List.find?_eq_none]
  constructor
  · intro h m hm
    simpa using h _ (mem_sortedEntries.2 ⟨m, hm, rfl⟩)
  · intro h x hx
    obtain ⟨m, hm, rfl⟩ := mem_sortedEntries.1 hx
    simpa using h m hm

end EnumNames
