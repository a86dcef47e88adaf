import EnumNames.Manifest.Document
import EnumNames.Proofs.Generated.Isolation
import EnumNames.Proofs.Kind
import EnumNames.Proofs.Manifest.Account

/-!
# Types of no integer kind

The kind of a type is judged after its numbers: with no kind known every integer is let pass, and the
type is then refused for its kind. A number that is no integer is found before, and the type is
refused for that number.

* `Manifest.types_of_name`, `Manifest.diagnostics_of_name`: what is reported about a name that is
  not repeated is what becomes of its type.
* `DeclaredType.refusal`: the error about a type of no integer kind.
* `Manifest.generate_noKind`: such a type is refused once and leaves no trace in the text.
-/

namespace EnumNames

open Decimal (twoPow)

variable {m : Manifest} {requested : List String} {policy : NamingPolicy} {o : Options}
  {header : Header} {file : GeneratedFile} {t : DeclaredType}

/-! ## What is reported about one name -/

/-- The first entries of some names are found among the entries of these names. -/
theorem filter_name_firstOfEach {α : Type} (name : α → String) (p : String → Bool) (l : List α) :
    (firstOfEach name l).filter (fun a => p (name a))
      = firstOfEach name (l.filter fun a => p (name a)) := by
  induction l using List.reverseRecOn with
  | nil => rfl
  | append_singleton l a ih =>
    rw [firstOfEach_concat, List.filter_append, List.filter_append, ih]
    by_cases hp : p (name a)
    · have hseen : name a ∈ (l.filter fun a => p (name a)).map name ↔ name a ∈ l.map name := by
        simp only [List.mem_map, List.mem_filter]
        constructor
        · rintro ⟨b, ⟨hb, -⟩, hname⟩
          exact ⟨b, hb, hname⟩
        · rintro ⟨b, hb, hname⟩
          exact ⟨b, ⟨hb, hname ▸ hp⟩, hname⟩
      have hlast : [a].filter (fun a => p (name a)) = [a] := by
        rw [List.filter_cons, if_pos hp, List.filter_nil]
      rw [hlast, firstOfEach_concat]
      simp only [hseen]
      split
      · rfl
      · rw [hlast]
    · have hnone : [a].filter (fun a => p (name a)) = [] := by
        rw [List.filter_cons, if_neg hp, List.filter_nil]
      rw [hnone, List.append_nil]
      split
      · exact List.append_nil _
      · rw [hnone, List.append_nil]

/-- Whatever becomes of a type, the findings about it name it. -/
theorem Outcome.filter_diagnostics {outcome : Outcome} {e : Enumeration} {n : String}
    (h : outcome = .repeated e.name ∨ outcome = .ofType o e) :
    outcome.diagnostics.filter (·.typeName = some n)
      = if e.name = n then outcome.diagnostics else [] := by
  rcases h with rfl | rfl
  · by_cases hn : e.name = n <;> simp [diagnostics, Diagnostic.warning, hn]
  · rcases e.generate_cases o with ⟨g, hg, -⟩ | ⟨err, hg, hname⟩
    · simp [ofType, hg, diagnostics]
    · by_cases hn : e.name = n <;>
        simp [ofType, hg, diagnostics, InputError.diagnostic, Diagnostic.error, hname, hn]

/-- What types of other names come to is not found under a name. -/
theorem filter_diagnostics_outcomesFrom (o : Options) {n : String} {seen seen' : List String}
    (hseen : n ∈ seen ↔ n ∈ seen') (types : List Enumeration) :
    ((outcomesFrom o seen types).flatMap Outcome.diagnostics).filter (·.typeName = some n)
      = (outcomesFrom o seen' (types.filter (·.name = n))).flatMap Outcome.diagnostics := by
  induction types generalizing seen seen' with
  | nil => rfl
  | cons e types ih =>
    have hfirst : (if e.name ∈ seen then Outcome.repeated e.name else .ofType o e)
        = .repeated e.name ∨ (if e.name ∈ seen then Outcome.repeated e.name else .ofType o e)
        = .ofType o e := by
      split
      · exact .inl rfl
      · exact .inr rfl
    rw [outcomesFrom, List.flatMap_cons, List.filter_append,
      Outcome.filter_diagnostics hfirst]
    by_cases hn : e.name = n
    · have hsame : e.name ∈ seen ↔ e.name ∈ seen' := by rw [hn, hseen]
      have hnext : n ∈ e.name :: seen ↔ n ∈ e.name :: seen' := by simp [hn]
      rw [if_pos hn, List.filter_cons_of_pos (by simpa using hn), outcomesFrom, List.flatMap_cons,
        ih hnext]
      simp only [hsame]
    · have hnext : n ∈ e.name :: seen ↔ n ∈ seen' := by
        rw [List.mem_cons, or_iff_right (Ne.symm hn), hseen]
      rw [if_neg hn, List.nil_append, List.filter_cons_of_neg (by simpa using hn), ih hnext]

namespace Manifest

/-- The type is selected once, and no other selected type has its name. -/
def IsSelectedAlone (m : Manifest) (requested : List String) (t : DeclaredType) : Prop :=
  (m.selected requested).filter (·.name = t.name) = [t]

/-- Of what is made from the selected types, the type that is alone has its own part. -/
theorem filter_filterMap_selected {β : Type} {f : DeclaredType → Option β} {p : β → Bool}
    (halone : m.IsSelectedAlone requested t)
    (hp : ∀ u b, f u = some b → p b = decide (u.name = t.name)) :
    ((m.selected requested).filterMap f).filter p = (f t).toList := by
  have hpart : ∀ u, (f u).filter p = if decide (u.name = t.name) then f u else none := by
    intro u
    cases hu : f u with
    | none => simp
    | some b => simp [Option.filter, hp u b hu]
  rw [List.filter_filterMap]
  simp only [hpart]
  rw [← List.filterMap_filter, halone, List.filterMap_cons]
  cases f t <;> rfl

theorem filter_counted (halone : m.IsSelectedAlone requested t) :
    (m.counted requested policy).filter (·.name = t.name)
      = if t.isConvertible policy then [t] else [] := by
  rw [counted, filter_name_firstOfEach DeclaredType.name (· = t.name), List.filter_comm, halone,
    List.filter_cons]
  split <;> rfl

/-- A type that is selected alone has one report. -/
theorem types_of_name (h : m.generate requested policy o header = .ok file)
    (halone : m.IsSelectedAlone requested t) :
    file.types.filter (·.typeName = t.name) = [t.report policy o] := by
  have hnames : ((fun r : TypeReport => decide (r.typeName = t.name)) ∘ (·.report policy o))
      = fun u : DeclaredType => decide (u.name = t.name) := by
    funext u
    rw [Function.comp_apply, DeclaredType.typeName_report]
  rw [types_generate h, List.filter_append, List.filter_map, List.filter_map, hnames,
    filter_counted halone, List.filter_comm, halone, List.filter_cons]
  by_cases hconvertible : t.isConvertible policy
  · rw [if_pos hconvertible, if_neg (by simp [hconvertible])]
    rfl
  · rw [if_neg hconvertible, if_pos (by simpa using hconvertible)]
    rfl

/-- A type that is selected alone is the only one of its name. -/
theorem filter_types_resolve (halone : m.IsSelectedAlone requested t) (policy : NamingPolicy) :
    (m.resolve requested policy).types.filter (·.name = t.name)
      = (t.enumeration policy).toOption.toList := by
  rw [types_resolve]
  refine filter_filterMap_selected halone fun u e he => ?_
  cases hu : u.enumeration policy with
  | error err => exact nomatch hu ▸ he
  | ok e' =>
    rw [hu] at he
    rw [← Option.some.inj he, DeclaredType.name_enumeration hu]

/-- The error that lists absent names is about no type. -/
theorem filter_errors_resolve (halone : m.IsSelectedAlone requested t) (policy : NamingPolicy) :
    ((m.resolve requested policy).errors.map InputError.diagnostic).filter
      (·.typeName = some t.name) = (t.fault? policy).toList.map InputError.diagnostic := by
  have hmissing : (if (m.missing requested).isEmpty then []
      else [InputError.unknownTypes (m.missing requested)]).filter
        (fun e => decide (e.diagnostic.typeName = some t.name)) = [] := by
    split <;> rfl
  rw [List.filter_map, errors_resolve, List.filter_append]
  simp only [Function.comp_def]
  rw [hmissing, List.append_nil, filter_filterMap_selected halone]
  intro u err hu
  unfold DeclaredType.fault? at hu
  split at hu
  · exact nomatch hu
  · next herr =>
    have hnamed : err.diagnostic.typeName = some u.name :=
      Option.some.inj hu ▸ DeclaredType.typeName?_enumeration herr
    simp [hnamed]

/-- The finding about the syntax names no type. -/
theorem filter_syntaxFinding? (source typeName : String) :
    (syntaxFinding? source).toList.filter (·.typeName = some typeName) = [] := by
  rw [syntaxFinding?]
  split <;> rfl

/-- A type that is selected alone is named by the error that refuses it, and by nothing else. -/
theorem diagnostics_of_name (h : m.generate requested policy o header = .ok file)
    (halone : m.IsSelectedAlone requested t) :
    file.diagnostics.filter (·.typeName = some t.name)
      = match t.code policy o with
        | .ok _ => []
        | .error err => [err.diagnostic] := by
  have hfile := eq_of_generate h
  rw [GeneratedFile.foldl_record] at hfile
  rw [hfile]
  show ((outcomes _ _).flatMap _ ++ (syntaxFinding? _).toList ++ _).filter _ = _
  rw [List.filter_append, List.filter_append, outcomes,
    filter_diagnostics_outcomesFrom o Iff.rfl, filter_types_resolve halone, filter_syntaxFinding?,
    filter_errors_resolve halone, List.append_nil]
  cases he : t.enumeration policy with
  | error err =>
    rw [DeclaredType.fault?, DeclaredType.code, he]
    rfl
  | ok e =>
    rw [DeclaredType.fault?, DeclaredType.code_eq he, he]
    cases hg : e.generate o with
    | ok g => simp [Except.toOption, outcomesFrom, Outcome.ofType, hg, Outcome.diagnostics]
    | error err => simp [Except.toOption, outcomesFrom, Outcome.ofType, hg, Outcome.diagnostics]

end Manifest

/-! ## Types of no integer kind -/

namespace DeclaredConstant

/-- Whether the number is no integer. -/
def isFloat (c : DeclaredConstant) : Bool :=
  match c.number with
  | .integer _ => false
  | .float _ => true

variable {c : DeclaredConstant} {typeName : String}

/-- A number with a fraction is refused, also for an unknown kind. -/
theorem resolve_of_isFloat (h : c.isFloat) :
    c.resolve typeName none policy = .error (c.outOfRange typeName none) := by
  rw [resolve, integer?]
  cases hnumber : c.number with
  | float x => rfl
  | integer n =>
    rw [isFloat, hnumber] at h
    exact nomatch h

/-- For an unknown kind, every other number is taken. -/
theorem exists_resolve_of_not_isFloat (h : ¬ c.isFloat) :
    ∃ d, c.resolve typeName none policy = .ok d := by
  rw [resolve, integer?]
  cases hnumber : c.number with
  | float x =>
    rw [isFloat, hnumber] at h
    exact absurd rfl h
  | integer n => exact ⟨c.constant typeName none policy n, rfl⟩

end DeclaredConstant

namespace DeclaredType

/-- The first constant with a name whose number is no integer. -/
def firstFloat? (t : DeclaredType) : Option DeclaredConstant :=
  t.constants.find? fun c => !c.isBlank && c.isFloat

/-- The error about a type of no integer kind: its first number that is no integer, which is compared
with the widest signed kind; or else its kind. -/
def refusal (t : DeclaredType) : InputError :=
  match t.firstFloat? with
  | some c => .valueOutOfRange t.name c.name c.number.text .i64
  | none => .unsupportedKind t.name t.kind

/-- With no kind known, constants are converted up to the first one whose number is no integer. -/
theorem mapM_resolve_noKind (typeName : String) (policy : NamingPolicy)
    (constants : List DeclaredConstant) :
    match constants.find? (·.isFloat) with
    | some c => constants.mapM (·.resolve typeName none policy)
        = .error (c.outOfRange typeName none)
    | none => ∃ resolved, constants.mapM (·.resolve typeName none policy) = .ok resolved := by
  split
  · next c hfind =>
    obtain ⟨hc, before, after, rfl, hbefore⟩ := List.find?_eq_some_iff_append.1 hfind
    refine mapM_eq_error_iff.2 ⟨before, c, after, rfl, fun b hb => ?_,
      DeclaredConstant.resolve_of_isFloat hc⟩
    exact DeclaredConstant.exists_resolve_of_not_isFloat (by simpa using hbefore b hb)
  · next hfind =>
    cases hrow : constants.mapM (·.resolve typeName none policy) with
    | ok resolved => exact ⟨resolved, rfl⟩
    | error err =>
      obtain ⟨c, hc, herror⟩ := exists_of_mapM_eq_error hrow
      have hinteger : ¬ c.isFloat := List.find?_eq_none.1 hfind c hc
      obtain ⟨d, hd⟩ := DeclaredConstant.exists_resolve_of_not_isFloat hinteger
      rw [hd] at herror
      exact nomatch herror

/-- A type of no integer kind is refused, by the conversion or by the generator. -/
theorem code_noKind (hkind : Kind.ofText? t.kind = none) :
    t.code policy o = .error t.refusal := by
  have hfind : (t.constants.filter (!·.isBlank)).find? (·.isFloat) = t.firstFloat? := by
    rw [List.find?_filter, firstFloat?]
    simp only [Bool.decide_and, Bool.decide_eq_true]
  have hconstants := mapM_resolve_noKind t.name policy (t.constants.filter (!·.isBlank))
  rw [hfind] at hconstants
  rw [refusal]
  cases hfloat : t.firstFloat? with
  | some c =>
    rw [hfloat] at hconstants
    have he : t.enumeration policy = .error (c.outOfRange t.name none) := by
      rw [enumeration, hkind]
      exact bind_eq_error_iff.2 (.inl hconstants)
    rw [code, he]
    rfl
  | none =>
    rw [hfloat] at hconstants
    obtain ⟨resolved, hresolved⟩ := hconstants
    have he : t.enumeration policy = .ok ⟨t.name, t.kind, resolved⟩ := by
      rw [enumeration, hkind]
      exact bind_eq_ok_iff.2 ⟨resolved, hresolved, rfl⟩
    rw [code_eq he]
    exact Enumeration.generate_eq_error_iff.2 (.inl ⟨hkind, rfl⟩)

end DeclaredType

namespace Manifest

/-- The manifest of the selected types that have another name. -/
def others (m : Manifest) (requested : List String) (name : String) : Manifest :=
  ⟨m.schemaVersion, (m.selected requested).filter (·.name ≠ name)⟩

/-- A type that is selected alone and has no code leaves no trace in the text. -/
theorem source_others (h : m.generate requested policy o header = .ok file)
    (halone : m.IsSelectedAlone requested t) {err : InputError} (hcode : t.code policy o = .error err) :
    ∃ file', (m.others requested t.name).generate [] policy o header = .ok file'
      ∧ file'.source = file.source := by
  obtain ⟨hvalid, hnames, -⟩ := generate_eq_ok_iff.1 h
  have hothers : ∀ e ∈ ((m.others requested t.name).resolve [] policy).types,
      o.validateType e.name = .ok () := by
    intro e he
    refine hnames e ?_
    rw [types_resolve, List.mem_filterMap] at he ⊢
    obtain ⟨u, hu, he⟩ := he
    exact ⟨u, List.mem_of_mem_filter hu, he⟩
  have hgenerate : (m.others requested t.name).generate [] policy o header = .ok _ :=
    generate_eq_ok_iff.2 ⟨hvalid, hothers, rfl⟩
  have hcounted : (m.others requested t.name).counted [] policy
      = (m.counted requested policy).filter (·.name ≠ t.name) := by
    rw [counted, counted, filter_name_firstOfEach DeclaredType.name (· ≠ t.name), List.filter_comm]
    rfl
  refine ⟨_, hgenerate, ?_⟩
  rw [source_generate hgenerate, source_generate h, hcounted, List.filterMap_filter]
  refine congrArg _ (List.filterMap_congr fun u hu => ?_)
  by_cases hname : u.name = t.name
  · -- the only type of the name is the one that has no code
    have hmem : u ∈ (m.selected requested).filter (·.name = t.name) :=
      List.mem_filter.2 ⟨mem_of_mem_counted hu, decide_eq_true hname⟩
    rw [halone, List.mem_singleton] at hmem
    rw [if_neg (by simpa using hname), hmem, hcode]
    rfl
  · rw [if_pos (by simpa using hname)]

/-- A type of no integer kind that is selected alone is refused once, and the text is that of the
other types. It is refused for its kind exactly if all its numbers are integers. -/
theorem generate_noKind (h : m.generate requested policy o header = .ok file)
    (halone : m.IsSelectedAlone requested t) (hkind : ∀ kind : Kind, Text.trim t.kind ≠ kind.name) :
    file.types.filter (·.typeName = t.name) = [.failed t.name]
      ∧ file.diagnostics.filter (·.typeName = some t.name) = [t.refusal.diagnostic]
      ∧ (t.refusal = .unsupportedKind t.name t.kind ↔ ∀ c ∈ t.constants, !c.isBlank → !c.isFloat)
      ∧ ∃ file', (m.others requested t.name).generate [] policy o header = .ok file'
        ∧ file'.source = file.source := by
  have hcode : t.code policy o = .error t.refusal :=
    DeclaredType.code_noKind (Kind.ofText?_eq_none_iff.2 hkind)
  refine ⟨?_, ?_, ?_, source_others h halone hcode⟩
  · rw [types_of_name h halone, DeclaredType.report_of_error hcode]
  · rw [diagnostics_of_name h halone, hcode]
  · have hinteger : (∀ c ∈ t.constants, !c.isBlank → !c.isFloat) ↔ t.firstFloat? = none := by
      simp [DeclaredType.firstFloat?]
    rw [hinteger, DeclaredType.refusal]
    cases t.firstFloat? <;> simp

/-- One half. -/
def half : Json.Number :=
  .float ⟨false, ⟨twoPow 52, -53⟩⟩

/-- A type of no integer kind; its only number that is no integer has no name. -/
def realType : DeclaredType :=
  ⟨"Real", " f64 ", [{ name := "_", number := half }, { name := "Big", number := .integer (twoPow 63) }]⟩

/-- A type of an integer kind beside one of another kind, which is asked for first. -/
def mixedKinds : Manifest :=
  ⟨manifestSchemaVersion, [⟨"T", "u8", [{ name := "A", number := .integer 1 }]⟩, realType]⟩

/-- A type of an unknown kind with whole numbers, next to a type that is fine. -/
theorem generate_noKind_mixedKinds : ∃ file, mixedKinds.generate ["Real", "T"] {} {} {} = .ok file
    ∧ mixedKinds.IsSelectedAlone ["Real", "T"] realType
    ∧ (∀ kind : Kind, Text.trim realType.kind ≠ kind.name)
    ∧ file.types.filter (·.typeName = "Real") = [.failed "Real"]
    ∧ file.diagnostics.filter (·.typeName = some "Real")
      = [(InputError.unsupportedKind "Real" " f64 ").diagnostic] := by
  have hgenerate : mixedKinds.generate ["Real", "T"] {} {} {} = .ok _ :=
    generate_eq_ok_iff.2 ⟨rfl, fun _ _ => rfl, rfl⟩
  have halone : mixedKinds.IsSelectedAlone ["Real", "T"] realType := by
    unfold IsSelectedAlone
    decide +kernel
  have hkind : ∀ kind : Kind, Text.trim realType.kind ≠ kind.name := by
    intro kind
    cases kind <;> decide
  obtain ⟨htypes, hdiagnostics, hrefusal, -⟩ := generate_noKind hgenerate halone hkind
  have hinteger : ∀ c ∈ realType.constants, !c.isBlank → !c.isFloat := by decide
  rw [hrefusal.2 hinteger] at hdiagnostics
  exact ⟨_, hgenerate, halone, hkind, htypes, hdiagnostics⟩

/-- A type of no integer kind whose only number is a fraction. -/
def fractionType : DeclaredType :=
  ⟨"T", "f64", [{ name := "A", number := half }]⟩

/-- The kind of the type is not what it is refused for. -/
theorem diagnostics_fractionType :
    ∃ file, (Manifest.mk manifestSchemaVersion [fractionType]).generate [] {} {} {} = .ok file
      ∧ (∀ kind : Kind, Text.trim fractionType.kind ≠ kind.name)
      ∧ file.diagnostics.filter (·.typeName = some "T")
        = [(InputError.valueOutOfRange "T" "A" "0.5" .i64).diagnostic]
      ∧ ¬ ∃ d ∈ file.diagnostics, d.typeName = some "T" ∧ d.code = .unsupportedKind := by
  have hgenerate : (Manifest.mk manifestSchemaVersion [fractionType]).generate [] {} {} {} = .ok _ :=
    generate_eq_ok_iff.2 ⟨rfl, fun _ _ => rfl, rfl⟩
  have halone : (Manifest.mk manifestSchemaVersion [fractionType]).IsSelectedAlone [] fractionType :=
    rfl
  have hkind : ∀ kind : Kind, Text.trim fractionType.kind ≠ kind.name := by
    intro kind
    cases kind <;> decide
  have hrefusal : fractionType.refusal = .valueOutOfRange "T" "A" "0.5" .i64 := by
    decide +kernel
  have hdiagnostics := diagnostics_of_name hgenerate halone
  rw [DeclaredType.code_noKind (Kind.ofText?_eq_none_iff.2 hkind), hrefusal] at hdiagnostics
  refine ⟨_, hgenerate, hkind, hdiagnostics, ?_⟩
  rintro ⟨d, hd, hname, hcode⟩
  have hmem := List.mem_filter (p := (·.typeName = some fractionType.name)).2
    ⟨hd, decide_eq_true hname⟩
  rw [hdiagnostics, List.mem_singleton] at hmem
  rw [hmem] at hcode
  exact nomatch hcode

end Manifest

end EnumNames
