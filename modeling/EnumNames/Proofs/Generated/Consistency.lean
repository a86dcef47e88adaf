import EnumNames.Proofs.Generated.Outcome

/-!
# Reports, findings and verdict agree

Whether a file is in order is told three times: by the verdict on its text, by the reports about its
types and by the findings. The three agree when the file is generated, and an error that is recorded
afterwards adds a report and a finding that agree again.

* `GeneratedFile.IsConsistent`: reports, findings and verdict agree.
* `isConsistent_ofOutcomes`: they do in a file that is generated.
* `IsConsistent.record` and `IsConsistent.foldl_record`: errors that are recorded keep it so.
* `generate_record_consistent`: what can be read off any of the three.
-/

namespace EnumNames

/-! ## Names of types without code -/

/-- The types that are reported to have no code. -/
def failedNames (reports : List TypeReport) : List String :=
  (reports.filter fun r => !r.ok).map TypeReport.typeName

/-- The types that are named by the errors among findings. -/
def errorNames (findings : List Diagnostic) : List String :=
  (findings.filter fun d => d.severity = .error).filterMap Diagnostic.typeName

@[simp] theorem failedNames_append (reports reports' : List TypeReport) :
    failedNames (reports ++ reports') = failedNames reports ++ failedNames reports' := by
  rw [failedNames, List.filter_append, List.map_append]
  rfl

@[simp] theorem errorNames_append (findings findings' : List Diagnostic) :
    errorNames (findings ++ findings') = errorNames findings ++ errorNames findings' := by
  rw [errorNames, List.filter_append, List.filterMap_append]
  rfl

/-- There is a failed name for each failed report. -/
theorem length_failedNames (reports : List TypeReport) :
    (failedNames reports).length = reports.countP fun r => !r.ok := by
  rw [failedNames, List.length_map, List.countP_eq_length_filter]

/-- There is an error name for each error about a type. -/
theorem length_errorNames (findings : List Diagnostic) : (errorNames findings).length
    = findings.countP fun d => d.severity = .error ∧ d.typeName.isSome := by
  rw [errorNames, List.length_filterMap_eq_countP, List.countP_filter]
  refine List.countP_congr fun d _ => ?_
  simp [and_comm]

theorem failedNames_eq_nil_iff {reports : List TypeReport} :
    failedNames reports = [] ↔ ∀ r ∈ reports, r.ok := by
  simp [failedNames]

/-- A failed report has its name among the failed ones. -/
theorem mem_failedNames {reports : List TypeReport} {r : TypeReport} (hr : r ∈ reports)
    (hfailed : r.ok = false) : r.typeName ∈ failedNames reports :=
  List.mem_map_of_mem (List.mem_filter.2 ⟨hr, by rw [hfailed]; rfl⟩)

/-- The error names are those of the errors about types. -/
theorem mem_errorNames {findings : List Diagnostic} {name : String} :
    name ∈ errorNames findings ↔ ∃ d ∈ findings, d.severity = .error ∧ d.typeName = some name := by
  simp [errorNames, and_assoc]

/-- The report that an error leads to names the type that the error names. -/
theorem InputError.failedNames_eq (e : InputError) :
    failedNames (e.typeName?.toList.map .failed) = errorNames [e.diagnostic] := by
  cases e <;> rfl

/-- An outcome has an error for its failed report, and none without one. -/
theorem Outcome.failedNames_eq (outcome : Outcome) :
    failedNames outcome.reports = errorNames outcome.diagnostics := by
  cases outcome with
  | generated g => rfl
  | failed e => exact e.failedNames_eq
  | repeated typeName => rfl

/-- Outcomes have errors for their failed reports, in the same order. -/
theorem failedNames_flatMap_reports (outcomes : List Outcome) :
    failedNames (outcomes.flatMap Outcome.reports)
      = errorNames (outcomes.flatMap Outcome.diagnostics) := by
  induction outcomes with
  | nil => rfl
  | cons outcome outcomes ih =>
    rw [List.flatMap_cons, List.flatMap_cons, failedNames_append, errorNames_append,
      outcome.failedNames_eq, ih]

/-- The finding about the text is an error that names no type. -/
theorem errorNames_syntaxFinding? (source : String) :
    errorNames (syntaxFinding? source).toList = [] := by
  rw [syntaxFinding?]
  split <;> rfl

/-! ## Reports without code -/

/-- A report made for an error says no more than the name. -/
theorem InputError.eq_failed {e : InputError} {r : TypeReport}
    (h : r ∈ e.typeName?.toList.map TypeReport.failed) : r = .failed r.typeName := by
  obtain ⟨typeName, -, rfl⟩ := List.mem_map.1 h
  rfl

/-- A failed report says no more than the name. -/
theorem Outcome.eq_failed {outcome : Outcome} {r : TypeReport} (h : r ∈ outcome.reports)
    (hfailed : r.ok = false) : r = .failed r.typeName := by
  cases outcome with
  | generated g =>
    rw [List.mem_singleton.1 h] at hfailed
    exact nomatch hfailed
  | failed e => exact InputError.eq_failed h
  | repeated typeName => exact absurd h List.not_mem_nil

/-! ## Bugs of the generator -/

/-- The findings that tell of a bug of the generator. -/
def bugs (findings : List Diagnostic) : List Diagnostic :=
  findings.filter fun d => d.code = .internalBug

/-- There are no bugs if no finding has that code. -/
theorem bugs_eq_nil_iff {findings : List Diagnostic} :
    bugs findings = [] ↔ ∀ d ∈ findings, d.code ≠ .internalBug := by
  simp [bugs]

/-- A text that fails the syntax check is an error. -/
theorem severity_syntaxFinding? {source : String} {d : Diagnostic}
    (h : d ∈ (syntaxFinding? source).toList) : d.severity = .error := by
  rw [syntaxFinding?] at h
  split at h
  · exact absurd h List.not_mem_nil
  · rw [List.mem_singleton.1 h]
    rfl

/-- The finding about the syntax is the only one that is a bug. -/
theorem bugs_syntaxFinding? (source : String) :
    bugs (syntaxFinding? source).toList = (syntaxFinding? source).toList := by
  rw [syntaxFinding?]
  split <;> rfl

/-! ## Files -/

namespace GeneratedFile

/-- Reports, findings and verdict of a file agree. -/
structure IsConsistent (file : GeneratedFile) : Prop where
  failedNames_eq : failedNames file.types = errorNames file.diagnostics
  /-- A report without code tells the name alone. -/
  eq_failed : ∀ r ∈ file.types, r.ok = false → r = .failed r.typeName
  /-- The only bug that is told of is that the text does not pass the syntax check. -/
  bugs_eq : bugs file.diagnostics = (syntaxFinding? file.source).toList
  verified_eq : file.verified = (syntaxFinding? file.source).isNone

/-- A file of outcomes is consistent. -/
theorem isConsistent_ofOutcomes (header : Header) (outcomes : List Outcome) :
    (ofOutcomes header outcomes).IsConsistent where
  failedNames_eq := by
    show failedNames (outcomes.flatMap _) = errorNames (outcomes.flatMap _ ++ _)
    rw [errorNames_append, errorNames_syntaxFinding?, List.append_nil, failedNames_flatMap_reports]
  eq_failed r hr hfailed := by
    obtain ⟨outcome, -, hreport⟩ := List.mem_flatMap.1 hr
    exact Outcome.eq_failed hreport hfailed
  bugs_eq := by
    -- no outcome tells of a bug, so all that is told comes from the syntax check
    have houtcomes : bugs (outcomes.flatMap Outcome.diagnostics) = [] := by
      refine bugs_eq_nil_iff.2 fun d hd => ?_
      obtain ⟨outcome, -, hmem⟩ := List.mem_flatMap.1 hd
      exact Outcome.code_ne_internalBug d hmem
    show bugs (outcomes.flatMap _ ++ _) = _
    rw [bugs, List.filter_append, ← bugs, ← bugs, houtcomes, bugs_syntaxFinding?, List.nil_append]
    rfl
  verified_eq := rfl

variable {file : GeneratedFile}

/-- An error that is recorded adds a report and a finding that agree, and no bug. -/
theorem IsConsistent.record (h : file.IsConsistent) (e : InputError) :
    (file.record e).IsConsistent where
  failedNames_eq := by
    show failedNames (file.types ++ _) = errorNames (file.diagnostics ++ _)
    rw [failedNames_append, errorNames_append, h.failedNames_eq, e.failedNames_eq]
  eq_failed r hr hfailed := by
    rcases List.mem_append.1 hr with hr | hr
    · exact h.eq_failed r hr hfailed
    · exact InputError.eq_failed hr
  bugs_eq := by
    have hnone : bugs [e.diagnostic] = [] :=
      bugs_eq_nil_iff.2 fun d hd => List.mem_singleton.1 hd ▸ e.code_ne_internalBug
    show bugs (file.diagnostics ++ _) = _
    rw [bugs, List.filter_append, ← bugs, ← bugs, hnone, List.append_nil, h.bugs_eq]
    rfl
  verified_eq := h.verified_eq

/-- A file is consistent after any number of recorded errors. -/
theorem IsConsistent.foldl_record (h : file.IsConsistent) (errors : List InputError) :
    (errors.foldl GeneratedFile.record file).IsConsistent := by
  induction errors generalizing file with
  | nil => exact h
  | cons e errors ih => exact ih (h.record e)

namespace IsConsistent

/-- The verdict is that no bug is told of. -/
theorem verified_iff (h : file.IsConsistent) :
    file.verified ↔ ∀ d ∈ file.diagnostics, d.code ≠ .internalBug := by
  rw [← bugs_eq_nil_iff, h.bugs_eq, h.verified_eq, Option.toList_eq_nil_iff,
    Option.isNone_iff_eq_none]

/-- There is one bug at most. -/
theorem length_bugs_le (h : file.IsConsistent) : (bugs file.diagnostics).length ≤ 1 := by
  rw [h.bugs_eq]
  exact Option.length_toList_le

/-- What is told of a bug is an error. -/
theorem severity_of_bug (h : file.IsConsistent) {d : Diagnostic} (hd : d ∈ file.diagnostics)
    (hbug : d.code = .internalBug) : d.severity = .error := by
  have hmem : d ∈ bugs file.diagnostics := List.mem_filter.2 ⟨hd, by rw [hbug]; rfl⟩
  rw [h.bugs_eq] at hmem
  exact severity_syntaxFinding? hmem

/-- A file is in order exactly if no finding is an error: reports without code and a text that does
not pass the check come with one. -/
theorem ok_iff (h : file.IsConsistent) :
    file.ok ↔ ∀ d ∈ file.diagnostics, d.severity ≠ .error := by
  have hok : file.ok ↔ file.verified ∧ (∀ r ∈ file.types, r.ok)
      ∧ ∀ d ∈ file.diagnostics, d.severity ≠ .error := by
    simp [ok, and_assoc]
  rw [hok]
  refine ⟨fun hall => hall.2.2, fun hnone => ⟨?_, ?_, hnone⟩⟩
  · refine h.verified_iff.2 fun d hd hbug => ?_
    exact hnone d hd (h.severity_of_bug hd hbug)
  · -- a report without code would be about a type that an error names
    rw [← failedNames_eq_nil_iff, h.failedNames_eq, List.eq_nil_iff_forall_not_mem]
    intro name hname
    obtain ⟨d, hd, herror, -⟩ := mem_errorNames.1 hname
    exact hnone d hd herror

end IsConsistent

end GeneratedFile

/-! ## Errors that are recorded -/

variable {o : Options} {types : List Enumeration}

/-- Whatever errors are recorded with a file that was generated: it is in order exactly if no finding
is an error; the types reported without code are those that errors name, in the same order; its text
is as it was, and was refused exactly if a bug is told of, which happens once at most. -/
theorem generate_record_consistent (hvalid : o.validate = .ok ())
    (htypes : ∀ e ∈ types, o.validateType e.name = .ok ()) (header : Header) :
    ∃ file, GeneratedFile.generate o header types = .ok file
      ∧ ∀ errors : List InputError, ∃ file', errors.foldl GeneratedFile.record file = file'
        ∧ (file'.ok ↔ ∀ d ∈ file'.diagnostics, d.severity ≠ .error)
        ∧ (file'.types.countP fun r => !r.ok)
          = file'.diagnostics.countP (fun d => d.severity = .error ∧ d.typeName.isSome)
        ∧ (file'.types.filter fun r => !r.ok).map TypeReport.typeName
          = (file'.diagnostics.filter fun d => d.severity = .error).filterMap Diagnostic.typeName
        ∧ (file'.verified = false ↔ ∃ d ∈ file'.diagnostics, d.code = .internalBug)
        ∧ (file'.diagnostics.countP fun d => d.code = .internalBug) ≤ 1
        ∧ file'.source = file.source := by
  refine ⟨.ofOutcomes header (outcomes o types), generate_eq_ok_iff.2 ⟨hvalid, htypes, rfl⟩, ?_⟩
  intro errors
  have h := (GeneratedFile.isConsistent_ofOutcomes header (outcomes o types)).foldl_record errors
  refine ⟨_, rfl, h.ok_iff, ?_, h.failedNames_eq, ?_, ?_, ?_⟩
  · rw [← length_failedNames, ← length_errorNames, h.failedNames_eq]
  · rw [← Bool.not_eq_true, h.verified_iff]
    simp only [not_forall, not_not, exists_prop]
  · rw [List.countP_eq_length_filter]
    exact h.length_bugs_le
  · rw [GeneratedFile.foldl_record]

/-- Errors that arose before: one names a type, the other names none. -/
def earlierErrors : List InputError :=
  [.valueOutOfRange "Dial" "Top" "256" .u8, .unknownTypes ["Hue", "Tone"]]

/-- Options with the least thresholds. -/
def leastOptions : Options :=
  ⟨"find_\x7b\x7d", 1, (0, 0)⟩

/-- Two types with accepted options, and errors recorded after them. -/
theorem generate_record_mixedTypes :
    leastOptions.validate = .ok () ∧ (∀ e ∈ mixedTypes, leastOptions.validateType e.name = .ok ())
      ∧ ∃ file file', GeneratedFile.generate leastOptions {} mixedTypes = .ok file
        ∧ earlierErrors.foldl GeneratedFile.record file = file' ∧ file'.ok = false
        ∧ (file'.types.countP fun r => !r.ok)
          = file'.diagnostics.countP (fun d => d.severity = .error ∧ d.typeName.isSome)
        ∧ file'.source = file.source := by
  have hplain : ∀ e ∈ mixedTypes, ∀ name ∈ leastOptions.lookupName? e.name,
      Code.isPlainIdentifier name := by decide
  have htypes : ∀ e ∈ mixedTypes, leastOptions.validateType e.name = .ok () := fun e he =>
    validateType_of_isIdentifier fun name hname =>
      (Code.isFunctionName_of_isPlainIdentifier (hplain e he name hname)).isIdentifier
  obtain ⟨file, hfile, hrecord⟩ := generate_record_consistent rfl htypes {}
  obtain ⟨file', hfile', hok, hcount, -, -, -, hsource⟩ := hrecord earlierErrors
  refine ⟨rfl, htypes, file, file', hfile, hfile', ?_, hcount, hsource⟩
  have hmem : (InputError.unknownTypes ["Hue", "Tone"]).diagnostic ∈ file'.diagnostics := by
    rw [← hfile']
    exact List.mem_append_right _ List.mem_cons_self
  rw [Bool.eq_false_iff]
  exact fun h => hok.1 h _ hmem rfl

end EnumNames
