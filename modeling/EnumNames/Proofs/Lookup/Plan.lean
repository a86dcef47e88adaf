import EnumNames.Proofs.Lookup.Entries
import EnumNames.Proofs.NameTable

/-!
# Lookup plans find the constant declared first

Each of the three shapes finds the entry of a name among entries that have one name each: in the
bucket of its hash, by halving, or directly. Names of equal hash share a bucket and are told apart
there.

* `bucket_eq_filter`: a bucket holds all entries of a hash.
* `bisect?_bind_getElem?`: halving finds what a search through all entries finds.
* `LookupPlan.find?_select`: a plan finds what a search through its entries finds.
* `Enumeration.value?_select_eq_some_iff`: the value of a name in terms of the declared constants.
-/

namespace EnumNames

open Std

/-! ## Buckets -/

/-- Hashed entries are ordered by their hashes first. -/
theorem le_of_hashedLe {a b : UInt32 × LookupEntry} (h : LookupPlan.hashedLe a b) : a.1 ≤ b.1 := by
  rw [LookupPlan.hashedLe, Ordering.isLE_then_iff_or] at h
  rcases h with hlt | ⟨heq, -⟩
  · exact UInt32.le_of_lt (compareOfLessAndEq_eq_lt.1 hlt)
  · exact UInt32.le_of_eq (LawfulEqOrd.eq_of_compare heq)

/-- In order of hashes, the entries of the least hash come first. -/
theorem takeWhile_eq_filter {entries : List (UInt32 × LookupEntry)} {hash : UInt32}
    (h : entries.Pairwise fun a b => a.1 ≤ b.1) (hleast : ∀ x ∈ entries, hash ≤ x.1) :
    entries.takeWhile (·.1 == hash) = entries.filter (·.1 == hash) := by
  induction entries with
  | nil => rfl
  | cons x rest ih =>
    rw [List.takeWhile_cons, List.filter_cons]
    by_cases hx : x.1 == hash
    · rw [if_pos hx, hx, ih h.tail fun y hy => hleast y (List.mem_cons_of_mem x hy), if_pos rfl]
    · rw [if_neg hx, Bool.eq_false_iff.2 hx, eq_comm, if_neg Bool.false_ne_true,
        List.filter_eq_nil_iff]
      intro y hy heq
      rw [beq_iff_eq] at hx heq
      have hxy : x.1 ≤ y.1 := List.rel_of_pairwise_cons h hy
      exact hx (UInt32.le_antisymm (heq ▸ hxy) (hleast x List.mem_cons_self))

/-- In order of hashes, the entries of one hash stand together. -/
theorem bucket_eq_filter {entries : List (UInt32 × LookupEntry)}
    (h : entries.Pairwise fun a b => a.1 ≤ b.1) (hash : UInt32) :
    LookupPlan.bucket entries hash = entries.filter (·.1 == hash) := by
  induction entries with
  | nil => rfl
  | cons x rest ih =>
    rw [LookupPlan.bucket, List.dropWhile_cons]
    by_cases hlt : x.1 < hash
    · have hne : ¬(x.1 == hash) = true := by
        rw [beq_iff_eq]
        exact UInt32.ne_of_lt hlt
      rw [if_pos (decide_eq_true hlt), List.filter_cons, if_neg hne, ← ih h.tail,
        LookupPlan.bucket]
    · rw [if_neg (by simpa using hlt)]
      refine takeWhile_eq_filter h fun y hy => ?_
      have hx : hash ≤ x.1 := UInt32.not_lt.1 hlt
      rcases List.mem_cons.1 hy with rfl | hy
      · exact hx
      · exact UInt32.le_trans hx (List.rel_of_pairwise_cons h hy)

/-! ## Halving -/

/-- What the search by halving finds is equal. -/
theorem bisect?_eq_some {probe : Nat → Option Ordering} {low high i : Nat}
    (h : bisect? probe low high = some i) : probe i = some .eq := by
  fun_induction bisect? probe low high with
  | case1 => contradiction
  | case2 low high _ mid hmid =>
    rw [← Option.some.inj h]
    exact hmid
  | case3 low high _ mid hmid ih => exact ih h
  | case4 low high _ mid hmid ih => exact ih h
  | case5 => contradiction

/-- The place that is looked for stays between the bounds until it is found. -/
theorem bisect?_of_probe {probe : Nat → Option Ordering} {low high i : Nat} (hlow : low ≤ i)
    (hhigh : i < high) (hi : probe i = some .eq)
    (hbefore : ∀ j, j < i → probe j = some .gt)
    (hafter : ∀ j, i < j → j < high → probe j = some .lt) : bisect? probe low high = some i := by
  fun_induction bisect? probe low high with
  | case1 low high _ mid hmid =>
    rcases Nat.lt_trichotomy mid i with hlt | heq | hgt
    · rw [hbefore mid hlt] at hmid
      contradiction
    · rw [heq, hi] at hmid
      contradiction
    · rw [hafter mid hgt (by omega)] at hmid
      contradiction
  | case2 low high _ mid hmid =>
    rcases Nat.lt_trichotomy mid i with hlt | heq | hgt
    · rw [hbefore mid hlt] at hmid
      contradiction
    · rw [heq]
    · rw [hafter mid hgt (by omega)] at hmid
      contradiction
  | case3 low high _ mid hmid ih =>
    -- the probe is less than the middle, so the place is before it
    have hlt : i < mid := by
      rcases Nat.lt_trichotomy mid i with hlt | heq | hgt
      · rw [hbefore mid hlt] at hmid
        contradiction
      · rw [heq, hi] at hmid
        contradiction
      · exact hgt
    exact ih hlow hlt fun j hj hj' => hafter j hj (by omega)
  | case4 low high _ mid hmid ih =>
    -- the probe is greater than the middle, so the place is after it
    have hgt : mid < i := by
      rcases Nat.lt_trichotomy mid i with hlt | heq | hgt
      · exact hlt
      · rw [heq, hi] at hmid
        contradiction
      · rw [hafter mid hgt (by omega)] at hmid
        contradiction
    exact ih hgt hhigh hafter
  | case5 => omega

/-- Among entries in the order of names, halving finds what a search through all finds. -/
theorem bisect?_bind_getElem? {entries : List LookupEntry}
    (h : entries.Pairwise fun a b => compare a.name b.name = .lt) (name : String) :
    (bisect? (fun i => entries[i]?.map fun x => compare name x.name) 0 entries.length).bind
        (entries[·]?)
      = entries.find? (·.name == name) := by
  cases hf : entries.find? (·.name == name) with
  | some x =>
    have hname : x.name = name := by simpa using List.find?_some hf
    obtain ⟨i, hi⟩ := List.mem_iff_getElem?.1 (List.mem_of_find?_eq_some hf)
    obtain ⟨hlen, rfl⟩ := List.getElem?_eq_some_iff.1 hi
    -- before the entry all names are less, behind it all are greater
    rw [bisect?_of_probe (Nat.zero_le i) hlen, Option.bind_some, hi]
    · rw [hi, Option.map_some, hname, ReflOrd.compare_self]
    · intro j hj
      have hlt := List.pairwise_iff_getElem.1 h j i (by omega) hlen hj
      rw [List.getElem?_eq_getElem (by omega), Option.map_some, ← hname]
      rw [OrientedCmp.gt_of_lt hlt]
    · intro j hj hj'
      have hlt := List.pairwise_iff_getElem.1 h i j hlen hj' hj
      rw [List.getElem?_eq_getElem hj', Option.map_some, ← hname, hlt]
  | none =>
    cases hb : bisect? (fun i => entries[i]?.map fun x => compare name x.name) 0
        entries.length with
    | none => rfl
    | some i =>
      obtain ⟨x, hx, hc⟩ := Option.map_eq_some_iff.1 (bisect?_eq_some hb)
      have hne := List.find?_eq_none.1 hf x (List.mem_of_getElem? hx)
      rw [beq_iff_eq] at hne
      exact absurd (LawfulEqOrd.eq_of_compare hc).symm hne

/-! ## Plans -/

namespace LookupPlan

/-- The table of a plan has the names of its entries. -/
theorem getElem?_table (entries : List LookupEntry) (i : Nat) :
    (table entries).get? i = entries[i]?.map LookupEntry.name := by
  rw [table, NameTable.get?_ofNames, List.getElem?_map]

/-- Halving finds the entry of a name. -/
theorem find?_binarySearch {entries : List LookupEntry}
    (h : entries.Pairwise fun a b => compare a.name b.name = .lt) (name : String) :
    (binarySearch entries).find? name = entries.find? (·.name == name) := by
  rw [← bisect?_bind_getElem? h, find?]
  simp only [getElem?_table, Option.map_map]
  rfl

theorem hashedLe_trans (a b c : UInt32 × LookupEntry) (hab : hashedLe a b) (hbc : hashedLe b c) :
    hashedLe a c :=
  @TransCmp.isLE_trans _
    (compareLex (compareOn Prod.fst) (compareOn fun x : UInt32 × LookupEntry => x.2.name)) _ a b c
    hab hbc

theorem hashedLe_total (a b : UInt32 × LookupEntry) : hashedLe a b || hashedLe b a := by
  rw [hashedLe, hashedLe, @OrientedCmp.eq_swap _ compare _ a.1 b.1,
    @OrientedCmp.eq_swap _ compare _ a.2.name b.2.name]
  cases compare b.1 a.1 <;> cases compare b.2.name a.2.name <;> rfl

/-- The hashed entries are the entries with their hashes. -/
theorem mem_hashed {entries : List LookupEntry} {x : UInt32 × LookupEntry} :
    x ∈ hashed entries ↔ ∃ e ∈ entries, (e.hash, e) = x := by
  rw [hashed, List.mem_mergeSort, List.mem_map]

/-- Entries of one hash stand together. -/
theorem pairwise_hashed (entries : List LookupEntry) :
    (hashed entries).Pairwise fun a b => a.1 ≤ b.1 :=
  (List.pairwise_mergeSort hashedLe_trans hashedLe_total _).imp le_of_hashedLe

/-- Sorting by hash keeps the entries of one name in their order. -/
theorem find?_hashed (entries : List LookupEntry) (name : String) :
    ((hashed entries).find? (·.2.name == name)).map Prod.snd
      = entries.find? (·.name == name) := by
  rw [hashed, find?_mergeSort hashedLe_trans hashedLe_total]
  · rw [List.find?_map, Option.map_map]
    show (entries.find? (·.name == name)).map (fun e => e) = _
    rw [Option.map_id']
  · intro a ha b hb hpa hpb
    obtain ⟨x, -, rfl⟩ := List.mem_map.1 ha
    obtain ⟨y, -, rfl⟩ := List.mem_map.1 hb
    rw [beq_iff_eq] at hpa hpb
    rw [hashedLe, hpa, hpb, LookupEntry.hash, LookupEntry.hash, hpa, hpb]
    simp

/-- The bucket of a hash holds the entry of every name with that hash. -/
theorem find?_hashedSwitch (entries : List LookupEntry) (name : String) :
    (hashedSwitch (hashed entries)).find? name = entries.find? (·.name == name) := by
  rw [find?, bucket_eq_filter (pairwise_hashed entries), ← find?_hashed, ← List.head?_filter,
    ← List.head?_filter, List.filter_filter]
  congr 2
  refine List.filter_congr fun x hx => ?_
  obtain ⟨e, -, rfl⟩ := mem_hashed.1 hx
  by_cases hname : e.name = name
  · simp [hname, LookupEntry.hash]
  · simp [hname]

/-- Whatever its shape, a plan finds the entry of a name. -/
theorem find?_select (members : List Member) (thresholds : Nat × Nat) (name : String) :
    (select members thresholds).find? name
      = (distinctNames members).find? (·.name == name) := by
  rw [select]
  split
  · exact find?_hashedSwitch _ name
  · split
    · exact find?_binarySearch (pairwise_distinctNames members) name
    · rw [find?]

end LookupPlan

/-! ## Lookup in terms of the constants -/

namespace Enumeration

variable {e : Enumeration} {kind : Kind}

/-- Which of the entries of a member set has a name, in terms of the constants. -/
theorem Fits.find?_distinctNames_eq_some_iff (h : e.Fits kind) {name : String} {x : LookupEntry} :
    (distinctNames e.distinctMembers).find? (·.name == name) = some x ↔
      ∃ i c, e.DeclaredFirst i c ∧ c.name = name ∧ LookupEntry.ofMember ⟨i, c⟩ = x
        ∧ ∀ j d, j < i → e.DeclaredFirst j d → d.name ≠ name := by
  constructor
  · intro hf
    obtain ⟨m, hm, hx, hname, hleast⟩ := find?_distinctNames_eq_some hf
    refine ⟨m.position, m.constant, h.mem_distinctMembers.1 hm, hname, hx, fun j d hj hd hn => ?_⟩
    have hle : m.position ≤ j :=
      hleast ⟨j, d⟩ (h.mem_distinctMembers.2 hd) hn
    omega
  · rintro ⟨i, c, hc, hname, rfl, hleast⟩
    have hmem : ⟨i, c⟩ ∈ e.distinctMembers := h.mem_distinctMembers.2 hc
    cases hf : (distinctNames e.distinctMembers).find? (·.name == name) with
    | none => exact absurd hname (find?_distinctNames_eq_none.1 hf ⟨i, c⟩ hmem)
    | some x =>
      obtain ⟨m, hm, rfl, hname', hleast'⟩ := find?_distinctNames_eq_some hf
      have hle : m.position ≤ i := hleast' ⟨i, c⟩ hmem hname
      have hm' := h.mem_distinctMembers.1 hm
      -- neither of the two was declared before the other
      have hpos : m.position = i := by
        refine Nat.le_antisymm hle (Nat.not_lt.1 fun hlt => ?_)
        exact hleast m.position m.constant hlt hm' hname'
      have hconst : m.constant = c := by
        have hget := hm'.1
        rw [hpos, hc.1] at hget
        exact (Option.some.inj hget).symm
      rw [← hpos, ← hconst]

/-- A plan of any shape leads from a name to the value of the constant that is declared first among
those with the name that are the first of their value, and from any other text to nothing. -/
theorem value?_select_eq_some_iff (h : e.Fits kind) {set : MemberSet}
    (hset : e.memberSet = .ok set) (thresholds : Nat × Nat) (name : String) (v : Int) :
    (LookupPlan.select set.members thresholds).value? name = some v ↔
      ∃ i c, e.DeclaredFirst i c ∧ c.name = name ∧ c.value = v
        ∧ ∀ j d, j < i → e.DeclaredFirst j d → d.name ≠ name := by
  rw [LookupPlan.value?, LookupPlan.find?_select, h.eq_of_memberSet hset]
  simp only [Option.map_eq_some_iff, h.find?_distinctNames_eq_some_iff]
  constructor
  · rintro ⟨x, ⟨i, c, hc, hname, rfl, hleast⟩, hv⟩
    exact ⟨i, c, hc, hname, hv, hleast⟩
  · rintro ⟨i, c, hc, hname, hv, hleast⟩
    exact ⟨_, ⟨i, c, hc, hname, rfl, hleast⟩, hv⟩

/-- Two values share a name, which then stands for the one declared first; the name of a constant
that repeats a value stands for nothing. -/
theorem value?_select_gauge :
    (LookupPlan.select gauge.distinctMembers (0, 8)).value? "Most" = some 9223372036854775807
      ∧ (LookupPlan.select gauge.distinctMembers (8, 0)).value? "Nil" ≠ some 0 := by
  have hset : gauge.memberSet = .ok ⟨"Gauge", .i64, gauge.distinctMembers⟩ :=
    fits_gauge.memberSet_eq (by decide)
  refine ⟨?_, fun hnil => ?_⟩
  · refine (value?_select_eq_some_iff fits_gauge hset (0, 8) "Most" _).2
      ⟨0, _, ⟨rfl, ?_⟩, rfl, by decide, ?_⟩
    · intro j d hj
      contradiction
    · intro j d hj
      contradiction
  · obtain ⟨i, c, ⟨hc, hfirst⟩, hname, -⟩ :=
      (value?_select_eq_some_iff fits_gauge hset (8, 0) "Nil" 0).1 hnil
    obtain ⟨hi, rfl⟩ := List.getElem?_eq_some_iff.1 hc
    have hall : ∀ i (h : i < gauge.constants.length), gauge.constants[i].name = "Nil" → i = 3 := by
      decide
    obtain rfl := hall i hi hname
    exact hfirst 1 _ (by decide) rfl rfl

end Enumeration

end EnumNames
