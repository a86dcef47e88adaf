import EnumNames.Manifest.Resolve
import EnumNames.Proofs.Except
import EnumNames.Proofs.Generated.Outcome

/-!
# The file of selected types

A request selects types of a manifest, which are converted, generated and reported. The types that
can be converted go through the generator; the errors about the others are recorded afterwards.

* `Manifest.generate`: the file of a request.
* `Manifest.source_generate`, `Manifest.types_generate`: its text and its reports, type by type.
-/

namespace EnumNames

variable {m : Manifest} {requested : List String} {policy : NamingPolicy} {o : Options}
  {header : Header} {file : GeneratedFile} {t : DeclaredType}

namespace DeclaredType

/-- Whether all numbers of a type are integers of its kind. -/
def isConvertible (t : DeclaredType) (policy : NamingPolicy) : Bool :=
  (t.enumeration policy).isOk

/-- The code of a type, or the error that it is refused with. -/
def code (t : DeclaredType) (policy : NamingPolicy) (o : Options) : Except InputError GeneratedType :=
  t.enumeration policy >>= (·.generate o)

/-- The error about a type that cannot be converted. -/
def fault? (t : DeclaredType) (policy : NamingPolicy) : Option InputError :=
  match t.enumeration policy with
  | .ok _ => none
  | .error err => some err

/-- What is reported about a type. -/
def report (t : DeclaredType) (policy : NamingPolicy) (o : Options) : TypeReport :=
  match t.code policy o with
  | .ok g => .ofGenerated g
  | .error _ => .failed t.name

/-- Conversion keeps the name of a type. -/
theorem name_enumeration {e : Enumeration} (h : t.enumeration policy = .ok e) : e.name = t.name := by
  obtain ⟨constants, -, h⟩ := bind_eq_ok_iff.1 h
  rw [← Except.ok.inj h]

/-- Conversion keeps the text of a kind. -/
theorem kind_enumeration {e : Enumeration} (h : t.enumeration policy = .ok e) : e.kind = t.kind := by
  obtain ⟨constants, -, h⟩ := bind_eq_ok_iff.1 h
  rw [← Except.ok.inj h]

/-- The error about a type that cannot be converted names it. -/
theorem typeName?_enumeration {err : InputError} (h : t.enumeration policy = .error err) :
    err.typeName? = some t.name := by
  rcases bind_eq_error_iff.1 h with hconstants | ⟨constants, -, h⟩
  · obtain ⟨c, -, hc⟩ := exists_of_mapM_eq_error hconstants
    unfold DeclaredConstant.resolve at hc
    split at hc
    · exact nomatch hc
    · rw [← Except.error.inj hc]
      rfl
  · exact nomatch h

theorem typeName_code {g : GeneratedType} (h : t.code policy o = .ok g) : g.typeName = t.name := by
  obtain ⟨e, he, h⟩ := bind_eq_ok_iff.1 h
  rw [(Enumeration.eq_of_generate h).2, ← name_enumeration he]

/-- The code of a type is generated for what it is converted to. -/
theorem code_eq {e : Enumeration} (h : t.enumeration policy = .ok e) :
    t.code policy o = e.generate o := by
  rw [code, h]
  rfl

/-- A type that cannot be converted has no code. -/
theorem code_of_not_isConvertible (h : t.isConvertible policy = false) :
    ∃ err, t.code policy o = .error err := by
  unfold isConvertible at h
  cases he : t.enumeration policy with
  | error err => exact ⟨err, by rw [code, he]; rfl⟩
  | ok e =>
    rw [he] at h
    exact nomatch h

theorem report_eq {e : Enumeration} (h : t.enumeration policy = .ok e) :
    t.report policy o = e.report o := by
  have hname := name_enumeration h
  cases hg : e.generate o with
  | ok g => simp only [report, Enumeration.report, code_eq h, hg]
  | error err => simp only [report, Enumeration.report, code_eq h, hg, hname]

/-- A type without code has a failed report. -/
theorem report_of_error {err : InputError} (h : t.code policy o = .error err) :
    t.report policy o = .failed t.name := by
  rw [report, h]

@[simp] theorem typeName_report (t : DeclaredType) (policy : NamingPolicy) (o : Options) :
    (t.report policy o).typeName = t.name := by
  unfold report
  split
  · next g hg => exact typeName_code hg
  · rfl

end DeclaredType

namespace Manifest

/-- The file of the selected types. Those that could not be converted are recorded last. -/
def generate (m : Manifest) (requested : List String) (policy : NamingPolicy) (o : Options)
    (header : Header) : Except OptionsError GeneratedFile :=
  let resolved := m.resolve requested policy
  (GeneratedFile.generate o header resolved.types).map
    (resolved.errors.foldl GeneratedFile.record)

/-- The names that a request asks for: those it lists, or those of all types if it lists none. -/
def selectedNames (m : Manifest) (requested : List String) : List String :=
  if requested.isEmpty then m.types.map (·.name) else requested

theorem name_mem_selectedNames (h : t ∈ m.selected requested) :
    t.name ∈ m.selectedNames requested := by
  unfold selected at h
  unfold selectedNames
  split at h
  · next hempty =>
    rw [if_pos hempty]
    exact List.mem_map_of_mem h
  · next hempty =>
    obtain ⟨name, hname, hfind⟩ := List.mem_filterMap.1 h
    have heq : t.name = name := by
      simpa using List.find?_some hfind
    rw [if_neg hempty, heq]
    exact hname

/-- A name that is asked for belongs to a selected type, or the manifest does not hold it. -/
theorem exists_selected_or_mem_missing {name : String} (h : name ∈ m.selectedNames requested) :
    (∃ t ∈ m.selected requested, t.name = name) ∨ name ∈ m.missing requested := by
  unfold selectedNames at h
  unfold selected
  split at h
  · next hempty =>
    rw [if_pos hempty]
    exact .inl (by simpa using h)
  · next hempty =>
    rw [if_neg hempty]
    cases hfind : m.find? name with
    | none => exact .inr (List.mem_filter.2 ⟨h, by simp [hfind]⟩)
    | some t =>
      have heq : t.name = name := by
        simpa using List.find?_some hfind
      exact .inl ⟨t, List.mem_filterMap.2 ⟨name, h, hfind⟩, heq⟩

/-- The types of a manifest are the selected ones that can be converted, in their order. -/
theorem types_resolve (m : Manifest) (requested : List String) (policy : NamingPolicy) :
    (m.resolve requested policy).types
      = (m.selected requested).filterMap fun t => (t.enumeration policy).toOption := by
  show ((m.selected requested).map (·.enumeration policy)).filterMap _ = _
  rw [List.filterMap_map]
  refine List.filterMap_congr fun t _ => ?_
  rw [Function.comp_apply]
  cases t.enumeration policy <;> rfl

/-- The errors are those of the selected types, and then the unknown names. -/
theorem errors_resolve (m : Manifest) (requested : List String) (policy : NamingPolicy) :
    (m.resolve requested policy).errors = (m.selected requested).filterMap (·.fault? policy)
      ++ if (m.missing requested).isEmpty then [] else [.unknownTypes (m.missing requested)] := by
  show ((m.selected requested).map (·.enumeration policy)).filterMap _ ++ _ = _
  rw [List.filterMap_map]
  rfl

/-- Each recorded error about a type is reported as what becomes of that type. -/
theorem reports_errors (types : List DeclaredType) (policy : NamingPolicy) (o : Options) :
    (types.filterMap (·.fault? policy)).flatMap (fun e => e.typeName?.toList.map .failed)
      = (types.filter (!·.isConvertible policy)).map (·.report policy o) := by
  induction types with
  | nil => rfl
  | cons t types ih =>
    cases he : t.enumeration policy with
    | ok e =>
      have hfault : t.fault? policy = none := by
        rw [DeclaredType.fault?, he]
      have hconvertible : t.isConvertible policy = true := by
        rw [DeclaredType.isConvertible, he]
        rfl
      rw [List.filterMap_cons, hfault, ih, List.filter_cons_of_neg (by simp [hconvertible])]
    | error err =>
      have hfault : t.fault? policy = some err := by
        rw [DeclaredType.fault?, he]
      have hconvertible : t.isConvertible policy = false := by
        rw [DeclaredType.isConvertible, he]
        rfl
      have hcode : t.code policy o = .error err := by
        rw [DeclaredType.code, he]
        rfl
      rw [List.filterMap_cons, hfault, List.flatMap_cons, ih,
        List.filter_cons_of_pos (by simp [hconvertible]), List.map_cons,
        DeclaredType.report_of_error hcode, DeclaredType.typeName?_enumeration he]
      rfl

/-- The types that count: of each name the first one that can be converted. -/
def counted (m : Manifest) (requested : List String) (policy : NamingPolicy) : List DeclaredType :=
  firstOfEach DeclaredType.name ((m.selected requested).filter (·.isConvertible policy))

/-- The file of a request is that of the types which can be converted, with the errors about the
others recorded. -/
theorem generate_eq_ok_iff : m.generate requested policy o header = .ok file ↔ o.validate = .ok ()
    ∧ (∀ e ∈ (m.resolve requested policy).types, o.validateType e.name = .ok ())
    ∧ file = (m.resolve requested policy).errors.foldl GeneratedFile.record
      (.ofOutcomes header (outcomes o (m.resolve requested policy).types)) := by
  have hmap : m.generate requested policy o header
      = (GeneratedFile.generate o header (m.resolve requested policy).types).map
        ((m.resolve requested policy).errors.foldl GeneratedFile.record) := rfl
  rw [hmap, map_eq_ok_iff]
  constructor
  · rintro ⟨file', h, rfl⟩
    obtain ⟨hvalid, haccepted, rfl⟩ := EnumNames.generate_eq_ok_iff.1 h
    exact ⟨hvalid, haccepted, rfl⟩
  · rintro ⟨hvalid, haccepted, rfl⟩
    exact ⟨_, EnumNames.generate_eq_ok_iff.2 ⟨hvalid, haccepted, rfl⟩, rfl⟩

/-- What is generated for a manifest is the file of its types with the errors recorded. -/
theorem eq_of_generate (h : m.generate requested policy o header = .ok file) :
    file = (m.resolve requested policy).errors.foldl GeneratedFile.record
      (.ofOutcomes header (outcomes o (m.resolve requested policy).types)) :=
  (generate_eq_ok_iff.1 h).2.2

/-- The first types of their names are those that are counted. -/
theorem firstOfEach_types_resolve (m : Manifest) (requested : List String) (policy : NamingPolicy) :
    firstOfEach Enumeration.name (m.resolve requested policy).types
      = (m.counted requested policy).filterMap fun t => (t.enumeration policy).toOption := by
  have hname : ∀ (t : DeclaredType) e, (t.enumeration policy).toOption = some e → e.name = t.name :=
    fun _ _ he => DeclaredType.name_enumeration (toOption_eq_some_iff.1 he)
  have hconvertible : ∀ t : DeclaredType,
      ((t.enumeration policy).toOption.isSome) = t.isConvertible policy := by
    intro t
    rw [DeclaredType.isConvertible]
    cases t.enumeration policy <;> rfl
  rw [types_resolve, firstOfEach_filterMap hname, counted]
  simp only [hconvertible]

/-- The text of a file is that of the types that count, as far as there is code for them. -/
theorem source_generate (h : m.generate requested policy o header = .ok file) :
    file.source = header.source
      ((m.counted requested policy).filterMap fun t => (t.code policy o).toOption) := by
  rw [eq_of_generate h, GeneratedFile.foldl_record]
  show (GeneratedFile.ofOutcomes _ _).source = _
  rw [source_ofOutcomes, firstOfEach_types_resolve, List.filterMap_filterMap]
  congr 1
  refine List.filterMap_congr fun t _ => ?_
  rw [DeclaredType.code]
  cases t.enumeration policy <;> rfl

/-- The reports are those of the types that count, and then those of all that cannot be
converted. -/
theorem types_generate (h : m.generate requested policy o header = .ok file) :
    file.types = (m.counted requested policy).map (·.report policy o)
      ++ ((m.selected requested).filter (!·.isConvertible policy)).map (·.report policy o) := by
  -- only types that are converted count, so each has something that code is made from
  have hconverted : ∀ t ∈ m.counted requested policy, ∃ e, t.enumeration policy = .ok e := by
    intro t ht
    rw [counted, firstOfEach_eq] at ht
    have hconvertible := (List.mem_filter.1 (mem_of_mem_firstOfEachAfter ht).1).2
    rw [DeclaredType.isConvertible] at hconvertible
    cases he : t.enumeration policy with
    | ok e => exact ⟨e, rfl⟩
    | error err =>
      rw [he] at hconvertible
      exact nomatch hconvertible
  rw [eq_of_generate h, GeneratedFile.foldl_record]
  show (GeneratedFile.ofOutcomes _ _).types ++ _ = _
  congr 1
  · show (outcomes _ _).flatMap _ = _
    rw [reports_outcomes, firstOfEach_types_resolve, List.map_filterMap, ← List.filterMap_eq_map]
    refine List.filterMap_congr fun t ht => ?_
    obtain ⟨e, he⟩ := hconverted t ht
    rw [he]
    exact congrArg some (DeclaredType.report_eq he).symm
  · rw [errors_resolve, List.flatMap_append, reports_errors _ _ o]
    have hmissing : (if (m.missing requested).isEmpty then []
        else [InputError.unknownTypes (m.missing requested)]).flatMap
          (fun e => e.typeName?.toList.map TypeReport.failed) = [] := by
      split <;> rfl
    rw [hmissing, List.append_nil]

end Manifest

end EnumNames
