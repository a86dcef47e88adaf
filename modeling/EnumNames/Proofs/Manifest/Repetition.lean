import EnumNames.Manifest.Document
import EnumNames.Proofs.Manifest.Selection
import Mathlib.Data.List.Pairwise

/-!
# Repeated names in a request

A name may be selected more than once. The generator keeps the first type of a name; but a type that
cannot be converted never reaches the generator, and a later type of its name is the first one there.

* `FailuresStandAlone`: no type that cannot be converted shares its name.
* `nodup_typeNames_generate`: exactly then each name has one report, and the first selected type of a
  name is the one that counts.
-/

namespace EnumNames

variable {m : Manifest} {requested : List String} {policy : NamingPolicy} {o : Options}
  {header : Header} {file : GeneratedFile}

section FirstOfEach

variable {α : Type} {name : α → String} {p : α → Bool} {l : List α}

theorem firstOfEachAfter_seen_of_notMem {n : String} (h : ∀ a ∈ l, name a ≠ n) (seen : List String) :
    firstOfEachAfter name (n :: seen) l = firstOfEachAfter name seen l := by
  rw [firstOfEachAfter, firstOfEachAfter]
  refine congrArg _ (List.filter_congr fun a ha => ?_)
  simp [h a ha]

/-- Where names are shared by entries with a property alone, it does not matter whether the others
are left out before or after the first entries are chosen. -/
theorem firstOfEach_filter (h : l.Pairwise fun a b => name a = name b → p a ∧ p b) :
    firstOfEach name (l.filter p) = (firstOfEach name l).filter p := by
  rw [firstOfEach_eq, firstOfEach_eq]
  generalize [] = seen
  induction l generalizing seen with
  | nil => rfl
  | cons a l ih =>
    obtain ⟨hfirst, hrest⟩ := List.pairwise_cons.1 h
    by_cases hp : p a
    · rw [List.filter_cons_of_pos hp]
      by_cases hseen : name a ∈ seen
      · rw [firstOfEachAfter_of_mem hseen, firstOfEachAfter_of_mem hseen, ih hrest]
      · rw [firstOfEachAfter_of_notMem hseen, firstOfEachAfter_of_notMem hseen,
          List.filter_cons_of_pos hp, ih hrest]
    · rw [List.filter_cons_of_neg hp]
      by_cases hseen : name a ∈ seen
      · rw [firstOfEachAfter_of_mem hseen, ih hrest]
      · have hapart : ∀ b ∈ l, name b ≠ name a := fun b hb hname => hp (hfirst b hb hname.symm).1
        rw [firstOfEachAfter_of_notMem hseen, List.filter_cons_of_neg hp,
          firstOfEachAfter_seen_of_notMem hapart, ih hrest]

/-- An entry that does not share its name is the first one of it. -/
theorem filter_not_firstOfEach (h : l.Pairwise fun a b => name a = name b → p a ∧ p b) :
    (firstOfEach name l).filter (!p ·) = l.filter (!p ·) := by
  have hgeneral : ∀ seen, (∀ a ∈ l, ¬ p a → name a ∉ seen) →
      (firstOfEachAfter name seen l).filter (!p ·) = l.filter (!p ·) := by
    induction l with
    | nil => exact fun _ _ => rfl
    | cons a l ih =>
      intro seen hseen
      obtain ⟨hfirst, hrest⟩ := List.pairwise_cons.1 h
      have hlater : ∀ b ∈ l, ¬ p b → name b ∉ seen := fun b hb =>
        hseen b (List.mem_cons_of_mem _ hb)
      by_cases ha : name a ∈ seen
      · have hp : p a := by
          by_contra hp
          exact hseen a List.mem_cons_self hp ha
        rw [firstOfEachAfter_of_mem ha, List.filter_cons_of_neg (by simpa using hp),
          ih hrest seen hlater]
      · have hnext : ∀ b ∈ l, ¬ p b → name b ∉ name a :: seen := by
          intro b hb hp
          rw [List.mem_cons, not_or]
          exact ⟨fun hname => hp (hfirst b hb hname.symm).2, hlater b hb hp⟩
        rw [firstOfEachAfter_of_notMem ha, List.filter_cons, List.filter_cons, ih hrest _ hnext]
  rw [firstOfEach_eq]
  exact hgeneral [] (by simp)

/-- Where only elements with a property are repeated, the first ones of these and all others are the
first ones of all. -/
theorem perm_firstOfEach (h : l.Pairwise fun a b => name a = name b → p a ∧ p b) :
    (firstOfEach name (l.filter p) ++ l.filter (!p ·)).Perm (firstOfEach name l) := by
  rw [firstOfEach_filter h, ← filter_not_firstOfEach h]
  exact List.filter_append_perm p _

/-- The first entries with a property and all entries without it have different names exactly if no
entry without the property shares its name. -/
theorem nodup_firstOfEach_append_iff :
    ((firstOfEach name (l.filter p) ++ l.filter (!p ·)).map name).Nodup
      ↔ l.Pairwise fun a b => name a = name b → p a ∧ p b := by
  constructor
  · intro h
    rw [List.map_append, List.nodup_append] at h
    obtain ⟨-, hnodup, hapart⟩ := h
    have hothers : l.Pairwise fun a b => (!p a) = true → (!p b) = true → name a ≠ name b :=
      List.pairwise_filter.1 (List.pairwise_map.1 hnodup)
    have hmixed : ∀ a ∈ l, p a → ∀ b ∈ l, ¬ p b → name a ≠ name b := by
      intro a ha hpa b hb hpb
      obtain ⟨c, hc, hname⟩ := exists_mem_firstOfEach name (List.mem_filter.2 ⟨ha, hpa⟩)
      rw [← hname]
      exact hapart _ (List.mem_map_of_mem hc) _
        (List.mem_map_of_mem (List.mem_filter.2 ⟨hb, by simpa using hpb⟩))
    refine hothers.imp_of_mem fun {a b} ha hb hothers hname => ?_
    by_cases hpa : p a <;> by_cases hpb : p b
    · exact ⟨hpa, hpb⟩
    · exact absurd hname (hmixed a ha hpa b hb hpb)
    · exact absurd hname.symm (hmixed b hb hpb a ha hpa)
    · exact absurd hname (hothers (by simpa using hpa) (by simpa using hpb))
  · intro h
    exact ((perm_firstOfEach h).map name).nodup_iff.2 (nodup_map_firstOfEach name l)

end FirstOfEach

/-! ## Selected types -/

namespace Manifest

/-- No type that cannot be converted shares its name with another one. -/
def FailuresStandAlone (types : List DeclaredType) (policy : NamingPolicy) : Prop :=
  types.Pairwise fun t u => t.name = u.name → t.isConvertible policy ∧ u.isConvertible policy

/-- Without a type in its place that cannot be converted, the first selected type of a name is the
one whose code stands in the file; and it is the only one that is reported. In general the first one
that can be converted counts, and each one that cannot is reported as well. -/
theorem nodup_typeNames_generate (h : m.generate requested policy o header = .ok file) :
    ((file.types.map (·.typeName)).Nodup ↔ FailuresStandAlone (m.selected requested) policy)
      ∧ (FailuresStandAlone (m.selected requested) policy →
        file.source = header.source ((firstOfEach DeclaredType.name (m.selected requested)).filterMap
            fun t => (t.code policy o).toOption)
          ∧ file.types.Perm ((firstOfEach DeclaredType.name (m.selected requested)).map
            (·.report policy o)))
      ∧ file.source = header.source ((m.counted requested policy).filterMap
          fun t => (t.code policy o).toOption) := by
  have htypes := types_generate h
  have hsource := source_generate h
  rw [← List.map_append] at htypes
  refine ⟨?_, fun halone => ⟨?_, ?_⟩, hsource⟩
  -- names repeat among the reports exactly if a type that is not converted has the name of another
  · have hnames : file.types.map (·.typeName)
        = (m.counted requested policy
          ++ (m.selected requested).filter (!·.isConvertible policy)).map DeclaredType.name := by
      rw [htypes, List.map_map]
      exact List.map_congr_left fun t _ => t.typeName_report policy o
    rw [hnames]
    exact nodup_firstOfEach_append_iff
  · rw [hsource, counted, firstOfEach_filter halone, List.filterMap_filter]
    refine congrArg _ (List.filterMap_congr fun t _ => ?_)
    split
    · rfl
    · next ht =>
      obtain ⟨err, herr⟩ := DeclaredType.code_of_not_isConvertible (o := o) (by simpa using ht)
      rw [herr]
      rfl
  · rw [htypes]
    exact (perm_firstOfEach halone).map _

/-- A type with two constants. -/
def smallType (name constant : String) (number : Int) : DeclaredType :=
  ⟨name, "u8", [{ name := "Zero", number := .integer 0 },
    { name := constant, number := .integer number }]⟩

/-- Two types of one name, with a type between them that cannot be converted. -/
def repeatedTypes : Manifest :=
  ⟨manifestSchemaVersion, [smallType "T" "A" 1, smallType "Wide" "B" 256, smallType "T" "C" 2]⟩

/-- A name that is given twice, and a type that fails on its own. -/
theorem nodup_typeNames_repeatedTypes : ∃ file, repeatedTypes.generate [] {} {} {} = .ok file
    ∧ (file.types.map (·.typeName)).Nodup
    ∧ file.source = Header.source {} ([smallType "T" "A" 1, smallType "Wide" "B" 256].filterMap
      fun t => (t.code {} {}).toOption) := by
  have hgenerate : repeatedTypes.generate [] {} {} {} = .ok _ :=
    generate_eq_ok_iff.2 ⟨rfl, fun _ _ => rfl, rfl⟩
  have halone : FailuresStandAlone (repeatedTypes.selected []) {} := by
    unfold FailuresStandAlone
    decide
  obtain ⟨hnodup, hfirst, -⟩ := nodup_typeNames_generate hgenerate
  exact ⟨_, hgenerate, hnodup.2 halone, (hfirst halone).1⟩

/-- Two types of one name, the first of which cannot be converted. -/
def maskedType : Manifest :=
  ⟨manifestSchemaVersion, [smallType "T" "B" 256, smallType "T" "A" 1]⟩

/-- The second type is generated in place of the first, and both are reported. -/
theorem typeNames_maskedType : ∃ file, maskedType.generate [] {} {} {} = .ok file
    ∧ file.types.map (·.typeName) = ["T", "T"]
    ∧ ∃ g, (smallType "T" "A" 1).code {} {} = .ok g ∧ file.source = Header.source {} [g] := by
  have hgenerate : maskedType.generate [] {} {} {} = .ok _ :=
    generate_eq_ok_iff.2 ⟨rfl, fun _ _ => rfl, rfl⟩
  have hcounted : maskedType.counted [] {} = [smallType "T" "A" 1] := by
    decide
  obtain ⟨g, hg⟩ : ∃ g, (smallType "T" "A" 1).code {} {} = .ok g := ⟨_, rfl⟩
  refine ⟨_, hgenerate, ?_, g, hg, ?_⟩
  · rw [types_generate hgenerate, ← List.map_append, List.map_map, hcounted]
    simp only [Function.comp_def, DeclaredType.typeName_report]
    decide
  · rw [source_generate hgenerate, hcounted, List.filterMap_cons, hg]
    rfl

end Manifest

end EnumNames
