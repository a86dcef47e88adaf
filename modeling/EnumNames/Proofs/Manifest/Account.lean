import EnumNames.Proofs.Generated.Consistency
import EnumNames.Proofs.Manifest.Selection

/-!
# What becomes of the names that are asked for

A name that is asked for has its code in the file, or is reported as refused, or is listed among the
names that the manifest does not hold. A file is in order exactly if its text passes the syntax check
and all names are of the first sort.

* `Manifest.IsGenerated`, `GeneratedFile.Refuses`, `Manifest.IsUnknown`: the three sorts.
* `isGenerated_or_refuses_or_isUnknown`: there are no others.
* `ok_generate_iff`: when a file is in order.
-/

namespace EnumNames

variable {m : Manifest} {requested : List String} {policy : NamingPolicy} {o : Options}
  {header : Header} {file : GeneratedFile} {name : String}

/-! ## Reports and findings -/

/-- The names that an error is about, if they are missing in the manifest. -/
def InputError.unknownNames? : InputError → Option (List String)
  | unknownTypes names => some names
  | _ => none

namespace GeneratedFile

/-- A name is reported to have no code, and an error among the findings names it. -/
def Refuses (file : GeneratedFile) (name : String) : Prop :=
  .failed name ∈ file.types ∧ ∃ d ∈ file.diagnostics, d.severity = .error ∧ d.typeName = some name

end GeneratedFile

namespace Manifest

/-- What is generated for a manifest is consistent. -/
theorem isConsistent_generate (h : m.generate requested policy o header = .ok file) :
    file.IsConsistent := by
  rw [eq_of_generate h]
  exact (GeneratedFile.isConsistent_ofOutcomes _ _).foldl_record _

/-- Every report without code comes with an error that names the type. -/
theorem refuses_of_mem_types (h : m.generate requested policy o header = .ok file) {r : TypeReport}
    (hr : r ∈ file.types) (hfailed : r.ok = false) : file.Refuses r.typeName := by
  have hconsistent := isConsistent_generate h
  have hname : r.typeName ∈ errorNames file.diagnostics := by
    rw [← hconsistent.failedNames_eq]
    exact mem_failedNames hr hfailed
  exact ⟨hconsistent.eq_failed r hr hfailed ▸ hr, mem_errorNames.1 hname⟩

/-- An error among the findings is about the text, about a type that is reported, or about names
that the manifest does not hold. -/
theorem exists_of_error_mem (h : m.generate requested policy o header = .ok file) {d : Diagnostic}
    (hd : d ∈ file.diagnostics) (herror : d.severity = .error) :
    file.verified = false ∨ (∃ r ∈ file.types, r.ok = false)
      ∨ ∃ names, .unknownTypes names ∈ (m.resolve requested policy).errors := by
  have hfile := eq_of_generate h
  rw [GeneratedFile.foldl_record] at hfile
  rw [hfile] at hd ⊢
  rcases List.mem_append.1 hd with hd | hd
  · rcases List.mem_append.1 hd with hd | hd
    · obtain ⟨outcome, houtcome, hd⟩ := List.mem_flatMap.1 hd
      obtain ⟨e, -, -, hreport⟩ := failed_mem_reports houtcome hd herror
      refine .inr (.inl ⟨.failed e.name, ?_, rfl⟩)
      exact List.mem_append_left _ (List.mem_flatMap.2 ⟨outcome, houtcome, hreport⟩)
    · refine .inl ?_
      have hfinding := Option.mem_toList.1 hd
      exact Option.isNone_eq_false_iff.2 (Option.isSome_of_mem hfinding)
  · obtain ⟨e, he, rfl⟩ := List.mem_map.1 hd
    cases hname : e.typeName? with
    | some typeName =>
      refine .inr (.inl ⟨.failed typeName, ?_, rfl⟩)
      refine List.mem_append_right _ (List.mem_flatMap.2 ⟨e, he, ?_⟩)
      rw [hname]
      exact List.mem_singleton_self _
    | none =>
      cases e with
      | unknownTypes names => exact .inr (.inr ⟨names, he⟩)
      | _ => exact nomatch hname

/-! ## Names that the manifest does not hold -/

/-- A name is listed as one that the manifest does not hold. -/
def IsUnknown (m : Manifest) (requested : List String) (policy : NamingPolicy) (name : String) :
    Prop :=
  ∃ names, .unknownTypes names ∈ (m.resolve requested policy).errors ∧ name ∈ names

/-- The names of a request that the manifest does not hold, in the order of the request. -/
def absent (m : Manifest) (requested : List String) : List String :=
  requested.filter (· ∉ m.types.map (·.name))

/-- The names that are reported as missing are those that no type has. -/
theorem missing_eq (m : Manifest) (requested : List String) :
    m.missing requested = m.absent requested := by
  refine List.filter_congr fun name _ => ?_
  rw [Bool.eq_iff_iff, Option.isNone_iff_eq_none, find?, List.find?_eq_none]
  simp

/-- A type that cannot be converted is not an unknown one. -/
theorem unknownNames?_of_fault? {t : DeclaredType} {e : InputError} (h : t.fault? policy = some e) :
    e.unknownNames? = none := by
  unfold DeclaredType.fault? at h
  split at h
  · exact nomatch h
  · next err herr =>
    have hname := DeclaredType.typeName?_enumeration herr
    rw [Option.some.inj h] at hname
    cases e with
    | unknownTypes names => exact nomatch hname
    | _ => rfl

/-- One error at most lists names that the manifest does not hold, and it lists all of them. -/
theorem unknownNames_errors (m : Manifest) (requested : List String) (policy : NamingPolicy) :
    (m.resolve requested policy).errors.filterMap InputError.unknownNames?
      = if m.absent requested = [] then [] else [m.absent requested] := by
  have hfaults : ((m.selected requested).filterMap (·.fault? policy)).filterMap
      InputError.unknownNames? = [] := by
    refine List.filterMap_eq_nil_iff.2 fun e he => ?_
    obtain ⟨t, -, ht⟩ := List.mem_filterMap.1 he
    exact unknownNames?_of_fault? ht
  rw [errors_resolve, List.filterMap_append, hfaults, missing_eq, List.nil_append]
  cases m.absent requested <;> rfl

/-- The names that no type has are reported together, if there are any. -/
theorem unknownTypes_mem_errors_iff {names : List String} :
    .unknownTypes names ∈ (m.resolve requested policy).errors
      ↔ names = m.absent requested ∧ m.absent requested ≠ [] := by
  have hmem : .unknownTypes names ∈ (m.resolve requested policy).errors
      ↔ names ∈ (m.resolve requested policy).errors.filterMap InputError.unknownNames? := by
    rw [List.mem_filterMap]
    constructor
    · exact fun h => ⟨_, h, rfl⟩
    · rintro ⟨e, he, hnames⟩
      cases e with
      | unknownTypes names' => rwa [← Option.some.inj hnames]
      | _ => exact nomatch hnames
  rw [hmem, unknownNames_errors]
  by_cases habsent : m.absent requested = []
  · simp [habsent]
  · simp [habsent]

/-- A name is unknown if it was asked for and no type has it. -/
theorem isUnknown_iff : m.IsUnknown requested policy name ↔ name ∈ m.absent requested := by
  simp only [IsUnknown, unknownTypes_mem_errors_iff]
  constructor
  · rintro ⟨_, ⟨rfl, -⟩, h⟩
    exact h
  · exact fun h => ⟨_, ⟨rfl, List.ne_nil_of_mem h⟩, h⟩

/-! ## The three sorts -/

/-- A selected type of the name has code, which is reported and stands in the text. -/
def IsGenerated (m : Manifest) (requested : List String) (policy : NamingPolicy) (o : Options)
    (file : GeneratedFile) (name : String) : Prop :=
  ∃ t ∈ m.selected requested, t.name = name ∧ ∃ g, t.code policy o = .ok g
    ∧ .ofGenerated g ∈ file.types ∧ ∃ before after, file.source = before ++ ("\n" ++ g.text) ++ after

theorem mem_of_mem_counted {t : DeclaredType} (h : t ∈ m.counted requested policy) :
    t ∈ m.selected requested := by
  rw [counted, firstOfEach_eq] at h
  exact List.mem_of_mem_filter (mem_of_mem_firstOfEachAfter h).1

/-- The text of a file holds the code of its types. -/
theorem exists_source_eq {code : List GeneratedType} {g : GeneratedType} (h : g ∈ code) :
    ∃ before after, header.source code = before ++ ("\n" ++ g.text) ++ after := by
  obtain ⟨first, last, rfl⟩ := List.append_of_mem h
  refine ⟨header.source first, String.join (last.map fun g => "\n" ++ g.text), ?_⟩
  simp [Header.source, String.append_assoc]

/-- A type that counts has its code in the file, or it is refused. -/
theorem isGenerated_or_refuses (h : m.generate requested policy o header = .ok file)
    {t : DeclaredType} (ht : t ∈ m.counted requested policy) :
    m.IsGenerated requested policy o file t.name ∨ file.Refuses t.name := by
  have hreport : t.report policy o ∈ file.types := by
    rw [types_generate h]
    exact List.mem_append_left _ (List.mem_map_of_mem ht)
  cases hcode : t.code policy o with
  | ok g =>
    refine .inl ⟨t, mem_of_mem_counted ht, rfl, g, hcode, ?_, ?_⟩
    · rwa [DeclaredType.report, hcode] at hreport
    · rw [source_generate h]
      exact exists_source_eq (List.mem_filterMap.2 ⟨t, ht, by rw [hcode]; rfl⟩)
  | error err =>
    rw [DeclaredType.report_of_error hcode] at hreport
    exact .inr (refuses_of_mem_types h hreport rfl)

/-- No name that is asked for is lost. -/
theorem isGenerated_or_refuses_or_isUnknown (h : m.generate requested policy o header = .ok file)
    (hname : name ∈ m.selectedNames requested) :
    m.IsGenerated requested policy o file name ∨ file.Refuses name
      ∨ m.IsUnknown requested policy name := by
  rcases exists_selected_or_mem_missing hname with ⟨t, ht, rfl⟩ | hmissing
  · by_cases hconvertible : t.isConvertible policy
    · have hmem : t ∈ (m.selected requested).filter (·.isConvertible policy) :=
        List.mem_filter.2 ⟨ht, hconvertible⟩
      obtain ⟨t', ht', heq⟩ := exists_mem_firstOfEach DeclaredType.name hmem
      rw [← heq]
      exact (isGenerated_or_refuses h ht').imp_right .inl
    · have hreport : t.report policy o ∈ file.types := by
        rw [types_generate h]
        refine List.mem_append_right _ (List.mem_map_of_mem (List.mem_filter.2 ⟨ht, ?_⟩))
        simpa using hconvertible
      obtain ⟨err, hcode⟩ := DeclaredType.code_of_not_isConvertible (o := o)
        (by simpa using hconvertible)
      rw [DeclaredType.report_of_error hcode] at hreport
      exact .inr (.inl (refuses_of_mem_types h hreport rfl))
  · rw [missing_eq] at hmissing
    exact .inr (.inr (isUnknown_iff.2 hmissing))

/-- Every report is about a name that is asked for. -/
theorem typeName_mem_selectedNames (h : m.generate requested policy o header = .ok file)
    {r : TypeReport} (hr : r ∈ file.types) : r.typeName ∈ m.selectedNames requested := by
  rw [types_generate h, ← List.map_append] at hr
  obtain ⟨t, ht, rfl⟩ := List.mem_map.1 hr
  rw [DeclaredType.typeName_report]
  rcases List.mem_append.1 ht with ht | ht
  · exact name_mem_selectedNames (mem_of_mem_counted ht)
  · exact name_mem_selectedNames (List.mem_of_mem_filter ht)

/-- An unknown name is one that was selected. -/
theorem mem_selectedNames_of_isUnknown (h : m.IsUnknown requested policy name) :
    name ∈ m.selectedNames requested := by
  have hrequested : name ∈ requested := List.mem_of_mem_filter (isUnknown_iff.1 h)
  rw [selectedNames, if_neg (by simpa using List.ne_nil_of_mem hrequested)]
  exact hrequested

/-- Errors that are recorded afterwards do not change the verdict on a text that is readable. -/
theorem verified_generate (h : m.generate requested policy o header = .ok file)
    (hrequest : IsReadableRequest o (m.resolve requested policy).types) (hline : header.IsOneLine) :
    file.verified := by
  rw [eq_of_generate h, GeneratedFile.foldl_record]
  exact (verified_ofOutcomes (hrequest.reads_source hline)).1

/-- A file is in order exactly if its text passes the syntax check and no name that is asked for is
refused or unknown. -/
theorem ok_generate_iff (h : m.generate requested policy o header = .ok file) :
    file.ok ↔ file.verified ∧ ∀ name ∈ m.selectedNames requested,
      ¬ file.Refuses name ∧ ¬ m.IsUnknown requested policy name := by
  have hok : file.ok ↔ file.verified ∧ (∀ r ∈ file.types, r.ok)
      ∧ ∀ d ∈ file.diagnostics, d.severity ≠ .error := by
    simp [GeneratedFile.ok, and_assoc]
  rw [hok]
  constructor
  · rintro ⟨hverified, hreports, hfindings⟩
    refine ⟨hverified, fun name _ => ⟨?_, ?_⟩⟩
    · rintro ⟨hreport, -⟩
      exact absurd (hreports _ hreport) Bool.false_ne_true
    · rintro ⟨names, herror, -⟩
      refine hfindings (InputError.unknownTypes names).diagnostic ?_ rfl
      rw [eq_of_generate h, GeneratedFile.foldl_record]
      exact List.mem_append_right _ (List.mem_map_of_mem herror)
  · rintro ⟨hverified, hnames⟩
    have hreports : ∀ r ∈ file.types, r.ok := by
      intro r hr
      by_contra hfailed
      exact (hnames _ (typeName_mem_selectedNames h hr)).1
        (refuses_of_mem_types h hr (by simpa using hfailed))
    refine ⟨hverified, hreports, fun d hd herror => ?_⟩
    rcases exists_of_error_mem h hd herror with hunverified | ⟨r, hr, hfailed⟩ | ⟨names, herror⟩
    · exact absurd hverified (by simp [hunverified])
    · exact absurd (hreports r hr) (by simp [hfailed])
    · obtain ⟨rfl, hne⟩ := unknownTypes_mem_errors_iff.1 herror
      obtain ⟨name, hname⟩ := List.exists_mem_of_ne_nil _ hne
      have hunknown : m.IsUnknown requested policy name := isUnknown_iff.2 hname
      exact (hnames name (mem_selectedNames_of_isUnknown hunknown)).2 hunknown

/-- A file that is in order has code for each name, so for one at least if any is asked for. -/
theorem generatedCount_pos (h : m.generate requested policy o header = .ok file) (hok : file.ok)
    (hne : m.selectedNames requested ≠ []) : 0 < file.generatedCount := by
  obtain ⟨name, hname⟩ := List.exists_mem_of_ne_nil _ hne
  obtain ⟨hrefuses, hunknown⟩ := ((ok_generate_iff h).1 hok).2 name hname
  rcases isGenerated_or_refuses_or_isUnknown h hname with hgenerated | hrefused | hmissing
  · obtain ⟨t, -, -, g, -, hreport, -⟩ := hgenerated
    exact List.countP_pos_iff.2 ⟨_, hreport, rfl⟩
  · exact absurd hrefused hrefuses
  · exact absurd hmissing hunknown

/-- There is no code if no name is asked for. -/
theorem generatedCount_eq_zero (h : m.generate requested policy o header = .ok file)
    (hnil : m.selectedNames requested = []) : file.generatedCount = 0 := by
  refine List.countP_eq_zero.2 fun r hr => ?_
  have hname := typeName_mem_selectedNames h hr
  rw [hnil] at hname
  exact absurd hname List.not_mem_nil

end Manifest

end EnumNames
