import EnumNames.Proofs.Generated.Item
import EnumNames.Proofs.Generated.Source

/-!
# Files that pass the syntax check

The source of a file holds the items of its types and nothing else that is read, and readable items
are a source file. Which names its constants show plays no part in it.

* `fileItems`: the items of a file.
* `IsReadableRequest.reads_source`: what a reader of the source of a file finds.
* `generate_verified`: generated files pass the syntax check.
-/

namespace EnumNames

open Code Target Text

variable {o : Options} {header : Header} {types : List Enumeration}

/-! ## Outcomes -/

/-- Only the syntax check reports a bug of the generator. -/
theorem InputError.code_ne_internalBug (e : InputError) : e.code ≠ .internalBug := by
  cases e <;> exact nofun

namespace Outcome

/-- The items that a type adds to the file. -/
def items : Outcome → List Item
  | generated g => g.items
  | failed _ | repeated _ => []

/-- The text of an outcome is read as its items. -/
theorem reads_text {outcome : Outcome} (h : ∀ item ∈ outcome.items, item.IsReadable) :
    Reads outcome.text outcome.items := by
  cases outcome with
  | generated g => exact reads_lineFeed.append (reads_itemsText h)
  | failed e => exact reads_empty
  | repeated typeName => exact reads_empty

/-- What becomes of a type is no bug of the generator. -/
theorem code_ne_internalBug {outcome : Outcome} :
    ∀ d ∈ outcome.diagnostics, d.code ≠ .internalBug := by
  intro d hd
  cases outcome with
  | generated g => exact absurd hd (by simp [diagnostics])
  | failed e =>
    rw [List.mem_singleton.1 hd]
    exact e.code_ne_internalBug
  | repeated typeName =>
    rw [List.mem_singleton.1 hd]
    show DiagnosticCode.duplicateType ≠ .internalBug
    simp

end Outcome

/-- An outcome is that of a type, or it tells that the name of one is repeated. -/
theorem mem_outcomesFrom {seen : List String} {outcome : Outcome}
    (h : outcome ∈ outcomesFrom o seen types) :
    ∃ e ∈ types, outcome = .repeated e.name ∨ outcome = .ofType o e := by
  induction types generalizing seen with
  | nil => exact absurd h (by simp [outcomesFrom])
  | cons e types ih =>
    rw [outcomesFrom, List.mem_cons] at h
    rcases h with h | h
    · refine ⟨e, List.mem_cons_self, ?_⟩
      split at h
      · exact .inl h
      · exact .inr h
    · obtain ⟨e', he', h⟩ := ih h
      exact ⟨e', List.mem_cons_of_mem _ he', h⟩

/-- The items of a file, type by type. -/
def fileItems (o : Options) (types : List Enumeration) : List Item :=
  (outcomes o types).flatMap Outcome.items

/-! ## Sources -/

/-- What the types of a request have to be for their code to be read back. -/
structure IsReadableRequest (o : Options) (types : List Enumeration) : Prop where
  isPlain : ∀ e ∈ types, e.IsPlain
  functionName : ∀ e ∈ types, ∀ name ∈ o.lookupName? e.name, IsFunctionName name

/-- All items of a readable request are readable. -/
theorem IsReadableRequest.isReadable_items (h : IsReadableRequest o types) {outcome : Outcome}
    (houtcome : outcome ∈ outcomes o types) : ∀ item ∈ outcome.items, item.IsReadable := by
  obtain ⟨e, he, rfl | rfl⟩ := mem_outcomesFrom houtcome
  · simp [Outcome.items]
  · unfold Outcome.ofType
    split
    · next g hg => exact (h.isPlain e he).isReadable_items hg (h.functionName e he)
    · simp [Outcome.items]

/-- The source of a file is read as the items of its types. -/
theorem IsReadableRequest.reads_source (h : IsReadableRequest o types) (hline : header.IsOneLine) :
    Reads (GeneratedFile.ofOutcomes header (outcomes o types)).source (fileItems o types) := by
  have htexts : List.Forall₂ Reads ((outcomes o types).map Outcome.text)
      ((outcomes o types).map Outcome.items) := by
    rw [List.forall₂_map_left_iff, List.forall₂_map_right_iff, List.forall₂_same]
    exact fun outcome houtcome => Outcome.reads_text (h.isReadable_items houtcome)
  have hbody := reads_join htexts
  exact (reads_header hline).append hbody

/-! ## Whole files -/

theorem forM_eq_ok_iff {α : Type} {f : α → Except OptionsError Unit} {l : List α} :
    l.forM f = .ok () ↔ ∀ a ∈ l, f a = .ok () := by
  induction l with
  | nil => exact iff_of_true rfl (by simp)
  | cons a l ih =>
    rw [List.forall_mem_cons, ← ih]
    show (f a >>= fun _ => l.forM f) = _ ↔ _
    cases hfa : f a with
    | error e => exact iff_of_false nofun (by simp)
    | ok u => exact ⟨fun h => ⟨rfl, h⟩, fun h => h.2⟩

/-- A file is generated whenever the options are valid for all types. -/
theorem generate_eq_ok_iff {file : GeneratedFile} :
    GeneratedFile.generate o header types = .ok file ↔ o.validate = .ok ()
      ∧ (∀ e ∈ types, o.validateType e.name = .ok ())
      ∧ file = .ofOutcomes header (outcomes o types) := by
  rw [← forM_eq_ok_iff (f := fun e : Enumeration => o.validateType e.name), GeneratedFile.generate]
  cases hvalidate : o.validate with
  | error e => exact iff_of_false nofun (by simp)
  | ok u =>
    show (types.forM (fun e => o.validateType e.name) >>= fun _ => _) = _ ↔ _
    cases htypes : types.forM fun e => o.validateType e.name with
    | error e => exact iff_of_false nofun (by simp)
    | ok u => 
      refine ⟨fun h => ⟨rfl, rfl, (Except.ok.inj h).symm⟩, fun h => ?_⟩
      rw [h.2.2]
      rfl

/-- A name that holds one identifier is accepted. -/
theorem validateType_of_isIdentifier {typeName : String}
    (h : ∀ name ∈ o.lookupName? typeName, isIdentifier name) : o.validateType typeName = .ok () := by
  unfold Options.validateType
  split
  · rfl
  · next name hname => rw [if_pos (h name hname)]

/-- The syntax check finds nothing in a source of readable items. -/
theorem Reads.isSourceFile {body : String} {items : List Item}
    (h : Reads (header.text ++ body) items) : isSourceFile (header.text ++ body) := by
  rw [isSourceFile_header, h.scanFrom_eq]
  exact accepts_items h.isReadable

/-- A source that is read as items has their tokens. -/
theorem Reads.scan?_eq {body : String} {items : List Item}
    (h : Reads (header.text ++ body) items) :
    scan? (header.text ++ body) = some (itemsTokens items) := by
  rw [scan?_header, h.scanFrom_eq]

theorem syntaxFinding?_eq_none {source : String} (h : isSourceFile source) :
    syntaxFinding? source = none :=
  if_pos h

/-- A file whose source is readable passes the syntax check, and no other bug is reported. -/
theorem verified_ofOutcomes {outcomes : List Outcome} {items : List Item}
    (h : Reads (header.text ++ String.join (outcomes.map Outcome.text)) items) :
    (GeneratedFile.ofOutcomes header outcomes).verified
      ∧ ∀ d ∈ (GeneratedFile.ofOutcomes header outcomes).diagnostics, d.code ≠ .internalBug := by
  have hfinding := syntaxFinding?_eq_none h.isSourceFile
  rw [GeneratedFile.ofOutcomes, hfinding]
  refine ⟨rfl, fun d hd => ?_⟩
  rw [Option.toList_none, List.append_nil] at hd
  obtain ⟨outcome, -, hmem⟩ := List.mem_flatMap.1 hd
  exact Outcome.code_ne_internalBug d hmem

/-- Well-formed types always give a file that passes the syntax check: whatever their constants are
called and whatever the options choose, as long as lookup functions have plain names and the header
keeps to its lines. -/
theorem generate_verified (hvalid : o.validate = .ok ()) (hplain : ∀ e ∈ types, e.IsPlain)
    (hname : ∀ e ∈ types, ∀ name ∈ o.lookupName? e.name, isPlainIdentifier name)
    (harguments : '\n' ∉ header.arguments.toList)
    (hdigest : ∀ digest ∈ header.digest, '\n' ∉ digest.toList) :
    ∃ file, GeneratedFile.generate o header types = .ok file ∧ file.verified = true
      ∧ ∀ d ∈ file.diagnostics, d.code ≠ .internalBug := by
  have hline : header.IsOneLine := ⟨fun h => harguments (mem_of_mem_trim h), hdigest⟩
  have hrequest : IsReadableRequest o types :=
    ⟨hplain, fun e he name hmem => isFunctionName_of_isPlainIdentifier (hname e he name hmem)⟩
  have hvalidType : ∀ e ∈ types, o.validateType e.name = .ok () := fun e he =>
    validateType_of_isIdentifier fun name hmem => (hrequest.functionName e he name hmem).isIdentifier
  refine ⟨.ofOutcomes header (outcomes o types), ?_, verified_ofOutcomes (hrequest.reads_source hline)⟩
  exact generate_eq_ok_iff.2 ⟨hvalid, hvalidType, rfl⟩

/-- A type with repeated values, a type without constants, a type of no integer kind, and the first
type again. The names that are shown hold quotes, line breaks and marks of comments. -/
def mixedTypes : List Enumeration :=
  [gauge, ⟨"Empty", "u8", []⟩,
    ⟨"Odd", "f32", [⟨"odd", "Odd", 0, false, " "⟩]⟩,
    ⟨"Mark", "u8", [⟨"\"/*", "crate::Mark::Open", 0, false, ""⟩,
      ⟨"*/\n//\\", "::marks::CLOSE", 7, false, "7"⟩]⟩,
    gauge]

/-- The types of the example have plain names. -/
theorem isPlain_mixedTypes : ∀ e ∈ mixedTypes, e.IsPlain := by
  intro e he
  simp only [mixedTypes, List.mem_cons, List.not_mem_nil, or_false] at he
  rcases he with rfl | rfl | rfl | rfl | rfl
  all_goals exact ⟨by decide, by decide, by decide⟩

/-- A file of two types, one of them with values in several runs. -/
theorem generate_verified_mixedTypes :
    ∃ file, GeneratedFile.generate { lookupTemplate := "find_\x7b\x7d" }
        { arguments := "--type Gauge", digest := some "00" } mixedTypes = .ok file
      ∧ file.verified = true ∧ ∀ d ∈ file.diagnostics, d.code ≠ .internalBug := by
  refine generate_verified rfl isPlain_mixedTypes ?_ (by decide) (by decide)
  decide

end EnumNames
