import EnumNames.Proofs.Generated.ItemName

/-!
# Outcomes of the first types

A type whose name occurred before adds nothing but a warning, so what a file holds and reports is
read off the first types of each name alone.

* `firstOfEach`: the first entries of each name.
* `flatMap_outcomes`: what types contribute, if repeated ones contribute nothing.
* `GeneratedFile.foldl_record`: what errors that are recorded add to a file.
-/

namespace EnumNames

variable {o : Options} {header : Header} {types : List Enumeration}

/-! ## The first entries -/

section FirstOfEach

variable {α β : Type} {name : α → String} {a : α} {l : List α}

/-- The first entry of each name. -/
def firstOfEach (name : α → String) (l : List α) : List α :=
  l.eraseDupsBy fun later first => name later == name first

/-- The first entries of names that do not occur before. -/
def firstOfEachAfter (name : α → String) (seen : List String) (l : List α) : List α :=
  firstOfEach name (l.filter (name · ∉ seen))

@[simp] theorem firstOfEachAfter_nil (seen : List String) : firstOfEachAfter name seen [] = [] :=
  rfl

/-- An element whose name was seen is dropped. -/
theorem firstOfEachAfter_of_mem {seen : List String} (h : name a ∈ seen) :
    firstOfEachAfter name seen (a :: l) = firstOfEachAfter name seen l := by
  rw [firstOfEachAfter, List.filter_cons_of_neg (by simpa using h), firstOfEachAfter]

/-- An element whose name is new is kept. -/
theorem firstOfEachAfter_of_notMem {seen : List String} (h : name a ∉ seen) :
    firstOfEachAfter name seen (a :: l) = a :: firstOfEachAfter name (name a :: seen) l := by
  rw [firstOfEachAfter, List.filter_cons_of_pos (by simpa using h), firstOfEach,
    List.eraseDupsBy_cons, List.filter_filter, firstOfEachAfter, firstOfEach]
  congr 3
  funext b
  simp [Bool.decide_and]

/-- It does not matter how often a name was seen. -/
theorem firstOfEachAfter_seen_of_mem {seen : List String} {n : String} (h : n ∈ seen) (l : List α) :
    firstOfEachAfter name (n :: seen) l = firstOfEachAfter name seen l := by
  have hsame : ∀ a, name a ∉ n :: seen ↔ name a ∉ seen := by
    intro a
    rw [List.mem_cons, not_or, and_iff_right_of_imp]
    rintro ha rfl
    exact ha h
  simp only [firstOfEachAfter, hsame]

theorem firstOfEach_eq (name : α → String) (l : List α) :
    firstOfEach name l = firstOfEachAfter name [] l := by
  rw [firstOfEachAfter]
  simp

/-- What is kept was there, under a name that had not been seen. -/
theorem mem_of_mem_firstOfEachAfter {seen : List String} (h : a ∈ firstOfEachAfter name seen l) :
    a ∈ l ∧ name a ∉ seen := by
  induction l generalizing seen with
  | nil => exact absurd h (by simp)
  | cons b l ih =>
    by_cases hb : name b ∈ seen
    · rw [firstOfEachAfter_of_mem hb] at h
      exact ⟨List.mem_cons_of_mem _ (ih h).1, (ih h).2⟩
    · rw [firstOfEachAfter_of_notMem hb, List.mem_cons] at h
      rcases h with rfl | h
      · exact ⟨List.mem_cons_self, hb⟩
      · obtain ⟨hmem, hseen⟩ := ih h
        exact ⟨List.mem_cons_of_mem _ hmem, fun hname => hseen (List.mem_cons_of_mem _ hname)⟩

/-- The first entries have different names. -/
theorem nodup_map_firstOfEach (name : α → String) (l : List α) :
    ((firstOfEach name l).map name).Nodup := by
  rw [firstOfEach_eq]
  generalize [] = seen
  induction l generalizing seen with
  | nil => exact List.nodup_nil
  | cons a l ih =>
    by_cases ha : name a ∈ seen
    · rw [firstOfEachAfter_of_mem ha]
      exact ih seen
    · rw [firstOfEachAfter_of_notMem ha, List.map_cons, List.nodup_cons, List.mem_map]
      refine ⟨?_, ih _⟩
      rintro ⟨b, hb, hname⟩
      refine (mem_of_mem_firstOfEachAfter hb).2 ?_
      rw [hname]
      exact List.mem_cons_self

/-- Every name of an entry is the name of a first one. -/
theorem exists_mem_firstOfEach (name : α → String) (h : a ∈ l) : ∃ b ∈ firstOfEach name l, name b = name a := by
  have hgeneral : ∀ seen, name a ∉ seen → ∃ b ∈ firstOfEachAfter name seen l, name b = name a := by
    induction l with
    | nil => exact absurd h (by simp)
    | cons b l ih =>
      intro seen hseen
      by_cases hb : name b ∈ seen
      · have hne : a ≠ b := by
          rintro rfl
          exact hseen hb
        rw [firstOfEachAfter_of_mem hb]
        exact ih (List.mem_of_ne_of_mem hne h) seen hseen
      · rw [firstOfEachAfter_of_notMem hb]
        by_cases hname : name b = name a
        · exact ⟨b, List.mem_cons_self, hname⟩
        · have hne : a ≠ b := by
            rintro rfl
            exact hname rfl
          have hnext : name a ∉ name b :: seen := by
            rw [List.mem_cons, not_or]
            exact ⟨Ne.symm hname, hseen⟩
          obtain ⟨c, hc, hcname⟩ := ih (List.mem_of_ne_of_mem hne h) _ hnext
          exact ⟨c, List.mem_cons_of_mem _ hc, hcname⟩
  rw [firstOfEach_eq]
  exact hgeneral [] (by simp)

/-- The first entries of a list that is made from another one, entry by entry under the same name. -/
theorem firstOfEach_filterMap {name' : β → String} {f : β → Option α}
    (hf : ∀ b a, f b = some a → name a = name' b) (l : List β) :
    firstOfEach name (l.filterMap f)
      = (firstOfEach name' (l.filter fun b => (f b).isSome)).filterMap f := by
  rw [firstOfEach_eq, firstOfEach_eq]
  generalize [] = seen
  induction l generalizing seen with
  | nil => rfl
  | cons b l ih =>
    cases hb : f b with
    | none =>
      rw [List.filterMap_cons_none hb, List.filter_cons_of_neg (by simp [hb])]
      exact ih seen
    | some a =>
      rw [List.filterMap_cons_some hb, List.filter_cons_of_pos (by simp [hb])]
      have hname := hf b a hb
      by_cases hseen : name' b ∈ seen
      · rw [firstOfEachAfter_of_mem hseen, firstOfEachAfter_of_mem (hname ▸ hseen)]
        exact ih seen
      · rw [firstOfEachAfter_of_notMem hseen, firstOfEachAfter_of_notMem (hname ▸ hseen),
          List.filterMap_cons_some hb, hname]
        rw [ih]

end FirstOfEach

/-! ## What types contribute -/

/-- Only the first types of each name contribute what a repeated one does not. -/
theorem flatMap_outcomes {β : Type} {f : Outcome → List β} (hf : ∀ name, f (.repeated name) = [])
    (o : Options) (types : List Enumeration) :
    (outcomes o types).flatMap f
      = (firstOfEach Enumeration.name types).flatMap fun e => f (.ofType o e) := by
  rw [outcomes, firstOfEach_eq]
  generalize [] = seen
  induction types generalizing seen with
  | nil => rfl
  | cons e types ih =>
    rw [outcomesFrom, List.flatMap_cons]
    by_cases he : e.name ∈ seen
    · rw [if_pos he, hf, List.nil_append, ih, firstOfEachAfter_of_mem he,
        firstOfEachAfter_seen_of_mem he]
    · rw [if_neg he, firstOfEachAfter_of_notMem he, List.flatMap_cons, ih]

/-- What is reported about a type that is the first of its name. -/
def Enumeration.report (e : Enumeration) (o : Options) : TypeReport :=
  match e.generate o with
  | .ok g => .ofGenerated g
  | .error _ => .failed e.name

/-- The outcome of a type has its report. -/
theorem reports_ofType (o : Options) (e : Enumeration) :
    (Outcome.ofType o e).reports = [e.report o] := by
  rcases e.generate_cases o with ⟨g, hg, -⟩ | ⟨err, hg, hname⟩
  · rw [Outcome.ofType, Enumeration.report, hg]
    rfl
  · rw [Outcome.ofType, Enumeration.report, hg, Outcome.reports, hname]
    rfl

/-- Each name has one report, that of its first type. -/
theorem reports_outcomes (o : Options) (types : List Enumeration) :
    (outcomes o types).flatMap Outcome.reports
      = (firstOfEach Enumeration.name types).map (·.report o) := by
  rw [flatMap_outcomes (fun _ => rfl), List.map_eq_flatMap]
  simp only [reports_ofType]

/-- The text of a file: below the header stands the code of its types, an empty line before each. -/
def Header.source (h : Header) (code : List GeneratedType) : String :=
  h.text ++ String.join (code.map fun g => "\n" ++ g.text)

/-- The text of a file is that of the first types, as far as there is code for them. -/
theorem source_ofOutcomes (header : Header) (o : Options) (types : List Enumeration) :
    (GeneratedFile.ofOutcomes header (outcomes o types)).source
      = header.source ((firstOfEach Enumeration.name types).filterMap
          fun e => (e.generate o).toOption) := by
  have hcode : ∀ e, (Outcome.ofType o e).generated?.toList = (e.generate o).toOption.toList := by
    intro e
    rw [Outcome.ofType]
    cases e.generate o <;> rfl
  have htexts : ∀ outcomes : List Outcome, String.join (outcomes.map Outcome.text)
      = String.join ((outcomes.filterMap Outcome.generated?).map fun g => "\n" ++ g.text) := by
    intro outcomes
    induction outcomes with
    | nil => rfl
    | cons outcome outcomes ih =>
      rw [List.map_cons, String.join_cons, ih]
      cases outcome with
      | generated g =>
        rw [List.filterMap_cons_some (rfl : Outcome.generated? (.generated g) = some g),
          List.map_cons, String.join_cons]
        rfl
      | failed e => exact String.empty_append
      | repeated typeName => exact String.empty_append
  rw [GeneratedFile.ofOutcomes, Header.source, htexts, List.filterMap_eq_flatMap_toList,
    flatMap_outcomes (fun _ => rfl), List.filterMap_eq_flatMap_toList]
  simp only [hcode]

/-- An error about a type comes with a report. -/
theorem failed_mem_reports {outcome : Outcome} (h : outcome ∈ outcomes o types) {d : Diagnostic}
    (hd : d ∈ outcome.diagnostics) (herror : d.severity = .error) :
    ∃ e ∈ types, d.typeName = some e.name ∧ .failed e.name ∈ outcome.reports := by
  obtain ⟨e, he, rfl | rfl⟩ := mem_outcomesFrom h
  · rw [List.mem_singleton.1 hd] at herror
    exact nomatch herror
  · rcases e.generate_cases o with ⟨g, hg, -⟩ | ⟨err, hg, hname⟩
    · rw [Outcome.ofType, hg] at hd
      exact absurd hd (by simp [Outcome.diagnostics])
    · rw [Outcome.ofType, hg] at hd ⊢
      rw [List.mem_singleton.1 hd]
      refine ⟨e, he, hname, ?_⟩
      rw [Outcome.reports, hname]
      exact List.mem_singleton_self _

/-! ## Errors that are recorded -/

/-- Recorded errors are reported and found in their order; the text stays as it is. -/
theorem GeneratedFile.foldl_record (errors : List InputError) (file : GeneratedFile) :
    errors.foldl record file = { file with
      types := file.types ++ errors.flatMap fun e => e.typeName?.toList.map .failed
      diagnostics := file.diagnostics ++ errors.map InputError.diagnostic } := by
  induction errors generalizing file with
  | nil => simp
  | cons e errors ih =>
    rw [List.foldl_cons, ih]
    simp [record]

end EnumNames
