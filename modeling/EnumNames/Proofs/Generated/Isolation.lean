import EnumNames.Proofs.Generated.Outcome

/-!
# Types do not get in each other's way

What a file holds for a type depends on the type alone: a type whose name occurred before, or that
is refused, leaves no trace in the text, so it may as well be left out of the request.

* `keptTypes`: the types that code is generated for.
* `firstOfEach_eq_filter`: the first entries of each name, in terms of positions.
* `generate_isolated`: the file of a request and the file of its kept types.
-/

namespace EnumNames

variable {o : Options} {header : Header} {types : List Enumeration}

/-! ## First entries by position -/

section FirstOfEach

variable {α : Type} {name : α → String}

/-- An entry at the end counts if its name has not occurred. -/
theorem firstOfEachAfter_concat (seen : List String) (l : List α) (a : α) :
    firstOfEachAfter name seen (l ++ [a]) = firstOfEachAfter name seen l
      ++ if name a ∈ seen ∨ name a ∈ l.map name then [] else [a] := by
  induction l generalizing seen with
  | nil =>
    by_cases ha : name a ∈ seen
    · rw [List.nil_append, firstOfEachAfter_of_mem ha, if_pos (.inl ha)]
      rfl
    · rw [List.nil_append, firstOfEachAfter_of_notMem ha, if_neg (by simpa using ha)]
      rfl
  | cons b l ih =>
    rw [List.cons_append]
    by_cases hb : name b ∈ seen
    · -- a name that was seen before adds nothing to those that are looked for
      have hiff : name a ∈ seen ∨ name a ∈ (b :: l).map name
          ↔ name a ∈ seen ∨ name a ∈ l.map name := by
        rw [List.map_cons, List.mem_cons]
        constructor
        · rintro (h | h | h)
          · exact .inl h
          · exact .inl (h ▸ hb)
          · exact .inr h
        · rintro (h | h)
          · exact .inl h
          · exact .inr (.inr h)
      rw [firstOfEachAfter_of_mem hb, firstOfEachAfter_of_mem hb, ih]
      simp only [hiff]
    · have hiff : name a ∈ seen ∨ name a ∈ (b :: l).map name
          ↔ name a ∈ name b :: seen ∨ name a ∈ l.map name := by
        rw [List.map_cons, List.mem_cons, List.mem_cons, or_left_comm, or_assoc]
      rw [firstOfEachAfter_of_notMem hb, firstOfEachAfter_of_notMem hb, ih, List.cons_append]
      simp only [hiff]

/-- A last element is kept if its name is new. -/
theorem firstOfEach_concat (l : List α) (a : α) :
    firstOfEach name (l ++ [a])
      = firstOfEach name l ++ if name a ∈ l.map name then [] else [a] := by
  rw [firstOfEach_eq, firstOfEachAfter_concat, ← firstOfEach_eq]
  simp only [List.not_mem_nil, false_or]

/-- The first entries are those whose name no entry before them has. -/
theorem firstOfEach_eq_filter (name : α → String) (l : List α) :
    firstOfEach name l
      = (l.zipIdx.filter fun p => name p.1 ∉ (l.take p.2).map name).map Prod.fst := by
  -- by induction on the end: the last entry is judged by all others, which are judged as before
  induction l using List.reverseRecOn with
  | nil => rfl
  | append_singleton l a ih =>
    have hlast : (l ++ [a]).take l.length = l := by
      rw [List.take_append_of_le_length (Nat.le_refl _), List.take_length]
    have hothers : l.zipIdx.filter (fun p => name p.1 ∉ ((l ++ [a]).take p.2).map name)
        = l.zipIdx.filter fun p => name p.1 ∉ (l.take p.2).map name := by
      apply List.filter_congr
      intro p hp
      have hlt : p.2 < l.length := by
        have := List.snd_lt_of_mem_zipIdx hp
        omega
      rw [List.take_append_of_le_length (Nat.le_of_lt hlt)]
    rw [firstOfEach_concat, ih, List.zipIdx_append, List.filter_append, hothers, List.map_append,
      Nat.zero_add, List.zipIdx_singleton]
    congr 1
    by_cases ha : name a ∈ l.map name
    · rw [if_pos ha, List.filter_cons_of_neg (by simpa [hlast] using ha)]
      rfl
    · rw [if_neg ha, List.filter_cons_of_pos (by simpa [hlast] using ha)]
      rfl

/-- The names of the first entries are all names, each at its first occurrence. -/
theorem map_firstOfEach (name : α → String) (l : List α) :
    (firstOfEach name l).map name = (l.map name).eraseDups := by
  induction l using List.reverseRecOn with
  | nil => rfl
  | append_singleton l a ih =>
    rw [firstOfEach_concat, List.map_append, List.map_append, List.eraseDups_append, ih,
      List.map_singleton, List.removeAll]
    congr 1
    by_cases ha : name a ∈ l.map name
    · rw [if_pos ha, List.filter_cons_of_neg (by simpa using ha)]
      rfl
    · rw [if_neg ha, List.filter_cons_of_pos (by simpa using ha)]
      rfl

/-- Where all names are different, every entry is a first one. -/
theorem firstOfEach_eq_self {l : List α} (h : (l.map name).Nodup) : firstOfEach name l = l := by
  induction l using List.reverseRecOn with
  | nil => rfl
  | append_singleton l a ih =>
    rw [List.map_append, List.map_singleton, List.nodup_append] at h
    obtain ⟨hl, -, hapart⟩ := h
    have ha : name a ∉ l.map name := fun ha => hapart _ ha _ (List.mem_singleton_self _) rfl
    rw [firstOfEach_concat, ih hl, if_neg ha]

end FirstOfEach

/-! ## Kept types -/

/-- The types that code is generated for: those that no type of the same name comes before and that
are not refused. -/
def keptTypes (o : Options) (types : List Enumeration) : List Enumeration :=
  (types.zipIdx.filter fun (e, i) =>
    e.name ∉ (types.take i).map Enumeration.name ∧ (e.generate o).isOk).map Prod.fst

/-- The types that are kept are the first ones of their names that give code. -/
theorem keptTypes_eq (o : Options) (types : List Enumeration) : keptTypes o types
    = (firstOfEach Enumeration.name types).filter fun e => (e.generate o).isOk := by
  rw [firstOfEach_eq_filter, List.filter_map, List.filter_filter, keptTypes]
  congr 2
  funext p
  simp only [Function.comp_apply, Bool.decide_and, Bool.decide_eq_true]
  exact Bool.and_comm _ _

theorem mem_of_mem_keptTypes {e : Enumeration} (h : e ∈ keptTypes o types) : e ∈ types := by
  rw [keptTypes_eq, List.mem_filter, firstOfEach_eq] at h
  exact (mem_of_mem_firstOfEachAfter h.1).1

/-- Nothing of kept types is repeated or refused. -/
theorem keptTypes_keptTypes (o : Options) (types : List Enumeration) :
    firstOfEach Enumeration.name (keptTypes o types) = keptTypes o types := by
  apply firstOfEach_eq_self
  rw [keptTypes_eq]
  exact (nodup_map_firstOfEach Enumeration.name types).sublist (List.filter_sublist.map _)

/-- A type that is kept gives code. -/
theorem exists_generate_of_mem_keptTypes {e : Enumeration} (h : e ∈ keptTypes o types) :
    ∃ g, e.generate o = .ok g := by
  rw [keptTypes_eq, List.mem_filter] at h
  cases hg : e.generate o with
  | ok g => exact ⟨g, rfl⟩
  | error err =>
    rw [hg] at h
    exact nomatch h.2

/-- The code of a file is that of its kept types, each of which has some. -/
theorem map_generate_keptTypes (o : Options) (types : List Enumeration) :
    (keptTypes o types).map (·.generate o)
      = ((keptTypes o types).filterMap fun e => (e.generate o).toOption).map .ok := by
  rw [List.map_filterMap, ← List.filterMap_eq_map]
  apply List.filterMap_congr
  intro e he
  obtain ⟨g, hg⟩ := exists_generate_of_mem_keptTypes he
  simp only [hg, Function.comp_apply, Except.toOption, Option.map_some]

/-! ## Files of kept types -/

/-- Types that are not kept add nothing to the text. -/
theorem source_eq_keptTypes (header : Header) (o : Options) (types : List Enumeration) :
    (GeneratedFile.ofOutcomes header (outcomes o types)).source
      = header.source ((keptTypes o types).filterMap fun e => (e.generate o).toOption) := by
  rw [source_ofOutcomes, keptTypes_eq, List.filterMap_filter]
  congr 2
  funext e
  cases e.generate o <;> rfl

/-- Without the types that give no code, the source is the same. -/
theorem source_keptTypes (header : Header) (o : Options) (types : List Enumeration) :
    (GeneratedFile.ofOutcomes header (outcomes o (keptTypes o types))).source
      = (GeneratedFile.ofOutcomes header (outcomes o types)).source := by
  rw [source_ofOutcomes, keptTypes_keptTypes, source_eq_keptTypes]

/-- Whether a file is verified shows in its text. -/
theorem verified_eq_of_source {header header' : Header} {l l' : List Outcome}
    (h : (GeneratedFile.ofOutcomes header l).source
      = (GeneratedFile.ofOutcomes header' l').source) :
    (GeneratedFile.ofOutcomes header l).verified
      = (GeneratedFile.ofOutcomes header' l').verified :=
  congrArg (fun source => (syntaxFinding? source).isNone) h

theorem ok_report (e : Enumeration) (o : Options) : (e.report o).ok = (e.generate o).isOk := by
  unfold Enumeration.report
  cases e.generate o <;> rfl

theorem typeName_report (e : Enumeration) (o : Options) : (e.report o).typeName = e.name := by
  unfold Enumeration.report
  rcases e.generate_cases o with ⟨g, hg, hname⟩ | ⟨err, herr, -⟩
  · rw [hg]
    exact hname
  · rw [herr]
    rfl

/-- The reports of types with code are those of the kept types. -/
theorem filter_ok_reports (o : Options) (types : List Enumeration) :
    ((outcomes o types).flatMap Outcome.reports).filter (·.ok)
      = (keptTypes o types).map (·.report o) := by
  rw [reports_outcomes, List.filter_map, keptTypes_eq]
  congr 2
  funext e
  exact ok_report e o

/-- Without the types that give no code, the good reports are the same. -/
theorem filter_ok_reports_keptTypes (o : Options) (types : List Enumeration) :
    ((outcomes o (keptTypes o types)).flatMap Outcome.reports).filter (·.ok)
      = ((outcomes o types).flatMap Outcome.reports).filter (·.ok) := by
  -- a kept type is neither repeated nor refused, so keeping twice is keeping once
  rw [filter_ok_reports, filter_ok_reports, keptTypes_eq o (keptTypes o types), keptTypes_keptTypes]
  congr 1
  rw [keptTypes_eq, List.filter_filter]
  simp only [Bool.and_self]

/-- Below its header, a file is the code of the kept types in their order and nothing else. A
request for these alone gives the same text, which is verified or not as before, and the same reports
of types with code; and each name of the request has one report, in the order of first
occurrences. -/
theorem generate_isolated (header : Header) (hvalid : o.validate = .ok ())
    (hnames : ∀ e ∈ types, o.validateType e.name = .ok ()) :
    ∃ file code file', GeneratedFile.generate o header types = .ok file
      ∧ (keptTypes o types).map (·.generate o) = code.map .ok
      ∧ file.source = header.source code
      ∧ GeneratedFile.generate o header (keptTypes o types) = .ok file'
      ∧ file'.source = file.source ∧ file'.verified = file.verified
      ∧ file'.types.filter (·.ok) = file.types.filter (·.ok)
      ∧ file.types.map (·.typeName) = (types.map Enumeration.name).eraseDups := by
  have hkept : ∀ e ∈ keptTypes o types, o.validateType e.name = .ok () := fun e he =>
    hnames e (mem_of_mem_keptTypes he)
  have hsource := source_keptTypes header o types
  refine ⟨.ofOutcomes header (outcomes o types), _,
    .ofOutcomes header (outcomes o (keptTypes o types)),
    generate_eq_ok_iff.2 ⟨hvalid, hnames, rfl⟩, map_generate_keptTypes o types,
    source_eq_keptTypes header o types, generate_eq_ok_iff.2 ⟨hvalid, hkept, rfl⟩, hsource,
    verified_eq_of_source hsource, filter_ok_reports_keptTypes o types, ?_⟩
  show ((outcomes o types).flatMap Outcome.reports).map _ = _
  rw [reports_outcomes, List.map_map, ← map_firstOfEach]
  exact List.map_congr_left fun e _ => typeName_report e o

/-- A template that puts a word behind the type name. -/
def fromTextOptions : Options :=
  { lookupTemplate := "\x7b\x7d_from_text" }

/-- Of the mixed types, one has no constants, one is of no integer kind, and the last one repeats
the first. -/
theorem generate_isolated_mixedTypes :
    (keptTypes fromTextOptions mixedTypes).map Enumeration.name = ["Gauge", "Mark"]
      ∧ ∃ file file', GeneratedFile.generate fromTextOptions {} mixedTypes = .ok file
        ∧ GeneratedFile.generate fromTextOptions {} (keptTypes fromTextOptions mixedTypes)
          = .ok file'
        ∧ file'.source = file.source
        ∧ file.types.map (·.typeName) = ["Gauge", "Empty", "Odd", "Mark"] := by
  have hnames : ∀ e ∈ mixedTypes, fromTextOptions.validateType e.name = .ok () := by
    decide +kernel
  obtain ⟨file, code, file', hfile, -, -, hfile', hsource, -, -, htypes⟩ :=
    generate_isolated {} rfl hnames
  exact ⟨by decide +kernel, file, file', hfile, hfile', hsource, htypes⟩

end EnumNames
