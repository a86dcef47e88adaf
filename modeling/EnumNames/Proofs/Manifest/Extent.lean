import EnumNames.Manifest.Document
import EnumNames.Manifest.Resolve
import EnumNames.Proofs.Json.Extent

/-!
# How many constants a manifest can declare

A type has no more constants than its document has bytes, and an enumeration no more than the type
that it is made from.

* `Manifest.length_constants_le_of_read`: the types of a manifest.
* `Manifest.length_constants_le_of_resolve`: the enumerations made from them.
-/

namespace EnumNames

open Json

variable {n : Nat}

theorem DeclaredType.ensures_read (n : Nat) :
    DeclaredType.schema.read.Ensures n fun t => t.constants.length ≤ n := by
  refine Schema.ensures_read (Nat.zero_le n) ?_
  simp only [schema, List.forall_mem_cons]
  refine ⟨?_, ?_, ?_, nofun⟩
  · exact Schema.keeps_update (Reader.ensures_true _ n) _ _ _ fun x t _ ht => ht
  · exact Schema.keeps_update (Reader.ensures_true _ n) _ _ _ fun x t _ ht => ht
  · exact Schema.keeps_update (Reader.Ensures.list (Reader.ensures_true _ n)) _ _ _
      fun x t hx _ => hx.1

namespace Manifest

/-- Every constant of a manifest takes a byte of the document at least. -/
theorem ensures_read (n : Nat) :
    schema.read.Ensures n fun m => ∀ t ∈ m.types, t.constants.length ≤ n := by
  refine Schema.ensures_read nofun ?_
  simp only [schema, List.forall_mem_cons]
  refine ⟨?_, ?_, nofun⟩
  · exact Schema.keeps_update (Reader.ensures_true _ n) _ _ _ fun x m _ hm => hm
  · exact Schema.keeps_update (Reader.Ensures.list (DeclaredType.ensures_read n)) _ _ _
      fun x m hx _ => hx.2

variable {m : Manifest} {bytes : List UInt8}

/-- A type of a manifest has no more constants than the document has bytes. -/
theorem length_constants_le_of_read (h : read bytes = .ok m) :
    ∀ t ∈ m.types, t.constants.length ≤ bytes.length := by
  unfold read at h
  split at h
  · next m' hread =>
    obtain ⟨t, ht, hend⟩ := bind_eq_ok_iff.1 hread
    have hm' : t.value = m' := by
      split at hend
      · exact nomatch hend
      · exact Except.ok.inj hend
    have hm : m' = m := by
      unfold checkVersion at h
      split at h
      · exact Except.ok.inj h
      · exact nomatch h
    rw [← hm, ← hm']
    exact ensures_read bytes.length bytes (Nat.le_refl _) t ht
  · exact nomatch h

end Manifest

/-- Conversion adds no constants. -/
theorem DeclaredType.length_constants_le_of_enumeration {t : DeclaredType} {policy : NamingPolicy}
    {e : Enumeration} (h : t.enumeration policy = .ok e) :
    e.constants.length ≤ t.constants.length := by
  obtain ⟨constants, hconstants, h⟩ := bind_eq_ok_iff.1 h
  rw [← Except.ok.inj h]
  show constants.length ≤ t.constants.length
  rw [length_eq_of_mapM_eq_ok hconstants]
  exact List.length_filter_le _ _

theorem Manifest.mem_of_mem_selected {m : Manifest} {requested : List String} {t : DeclaredType}
    (h : t ∈ m.selected requested) : t ∈ m.types := by
  unfold selected at h
  split at h
  · exact h
  · obtain ⟨name, -, hfind⟩ := List.mem_filterMap.1 h
    exact List.mem_of_find?_eq_some hfind

/-- Whatever is requested, no enumeration has more constants than the document has bytes. -/
theorem Manifest.length_constants_le_of_resolve {m : Manifest} {bytes : List UInt8}
    (h : read bytes = .ok m) (requested : List String) (policy : NamingPolicy) :
    ∀ e ∈ (m.resolve requested policy).types, e.constants.length ≤ bytes.length := by
  intro e he
  obtain ⟨result, hresult, he⟩ := List.mem_filterMap.1 he
  obtain ⟨t, ht, rfl⟩ := List.mem_map.1 hresult
  have henum : t.enumeration policy = .ok e := by
    split at he
    · next e' he' => rw [he', Option.some.inj he]
    · contradiction
  calc e.constants.length
      ≤ t.constants.length := DeclaredType.length_constants_le_of_enumeration henum
    _ ≤ bytes.length := length_constants_le_of_read h t (mem_of_mem_selected ht)

end EnumNames
