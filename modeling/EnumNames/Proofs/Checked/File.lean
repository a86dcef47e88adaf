import EnumNames.Checked.File
import EnumNames.Proofs.Checked.Display
import EnumNames.Proofs.Checked.Lookup
import EnumNames.Proofs.Generated.Depth
import EnumNames.Proofs.Generated.File
import EnumNames.Proofs.Manifest.Extent
import EnumNames.Proofs.Manifest.Selection

/-!
# The generator meets no fault

From the bytes of a manifest to the file with all errors recorded, the generator reads every list
and text inside its bounds and counts within machine words: the checked generator gives the file
that the generator gives. The same is true of every query of a lookup plan.

* `layOut_eq`: the depth of steps.
* `generateType_eq`, `addTypes_eq`, `generate_eq`: types and files.
* `run_eq`, `run_and_queries_meet_no_fault`: whole runs, and queries.
-/

namespace EnumNames.Checked

open Layout

/-! ## Layout -/

/-- The depth after a step depends on the depth before it alone. -/
theorem depth_apply (w : Writer) (step : Step) : (w.apply step).depth = step.depthAfter w.depth :=
  congrArg Writer.depth (apply_eq w.text w.depth step)

/-- A line leaves the depth as it is. -/
theorem depth_line (w : Writer) (s : String) : (w.line s).depth = w.depth := by
  obtain ⟨text, depth⟩ := w
  rw [line_eq]

/-- A block is opened without a fault as long as its depth fits a machine word. -/
theorem deeper_eq {w : Writer} (h : w.depth + 1 < wordCount) : deeper w = .ok w.deeper := by
  rw [deeper, add_eq h]
  rfl

/-- A step is laid out without a fault as long as a block could still be opened. -/
theorem applyStep_eq {w : Writer} (h : w.depth + 1 < wordCount) (step : Step) :
    applyStep w step = .ok (w.apply step) := by
  cases step with
  | indent => exact deeper_eq h
  | openBlock head => exact deeper_eq (by rwa [depth_line])
  | reopen joint =>
    refine deeper_eq ?_
    rw [depth_line]
    exact Nat.lt_of_le_of_lt (Nat.add_le_add_right (Nat.sub_le _ _) 1) h
  | line | dedent | blank | close | closeWith => rfl

/-- Steps that stay within a depth are laid out without a fault. -/
theorem layOut_eq {top e : Nat} {steps : List Step} (htop : top + 1 < wordCount)
    (h : StaysWithin top 0 steps e) : layOut steps = .ok (render steps) := by
  have hfold (w : Writer) (hw : StaysWithin top w.depth steps e) :
      steps.foldlM applyStep w = .ok (steps.foldl Writer.apply w) := by
    clear h
    induction steps generalizing w with
    | nil => rfl
    | cons step steps ih =>
      have hle : w.depth ≤ top := hw.1
      rw [List.foldlM_cons, applyStep_eq (by omega), ok_bind, List.foldl_cons]
      exact ih _ (by rw [depth_apply]; exact hw.2)
  rw [layOut, hfold {} h]
  rfl

/-! ## Types -/

section Types

variable {e : Enumeration} {o : Options}

/-- The positions of the constants are counted without a fault. -/
theorem memberSet_eq (h : e.constants.length < wordCount) : memberSet e = .ok e.memberSet := by
  rw [memberSet, Enumeration.memberSet, enumerate_eq h]
  cases Kind.ofText? e.kind with
  | none => rfl
  | some kind => cases e.constants.isEmpty <;> rfl

/-- There are no more members than constants. -/
theorem length_members_le {set : MemberSet} (h : e.memberSet = .ok set) :
    set.members.length ≤ e.constants.length := by
  obtain ⟨kind, -, -, rfl⟩ := Enumeration.memberSet_eq_ok_iff.1 h
  exact e.length_distinctMembers_le

/-- The text of a type and its report. -/
theorem generateType_eq (h : e.constants.length < wordCount) :
    generateType o e = .ok ((e.generate o).map fun g => (g.text, .ofGenerated g)) := by
  rw [generateType, memberSet_eq h, ok_bind, Enumeration.generate]
  cases hset : e.memberSet with
  | error err => rfl
  | ok set =>
    have hmembers : set.members.length < wordCount :=
      Nat.lt_of_le_of_lt (length_members_le hset) h
    let g : GeneratedType :=
      { typeName := e.name
        constants := e.constants
        size := set.members.length
        display := .select set.members o.runThreshold
        lookup := (o.lookupName? e.name).map fun functionName =>
          ⟨functionName, .select set.members o.lookupThresholds⟩ }
    have htext : layOut (Code.itemsSteps g.items) = .ok g.text :=
      layOut_eq (by decide) g.staysWithin_items
    simp only [Plan.select_eq hmembers, ok_bind, Plan.items_select hmembers, Plan.shape_ofPlan]
    cases hname : o.lookupName? e.name with
    | none =>
      simp only [g, GeneratedType.items, GeneratedType.lookupItems, hname, Option.map_none]
        at htext ⊢
      rw [htext]
      rfl
    | some functionName =>
      simp only [g, GeneratedType.items, GeneratedType.lookupItems, hname, Option.map_some]
        at htext ⊢
      rw [htext]
      rfl

end Types

/-! ## Files -/

/-- A file with the outcomes of more types. -/
def addOutcomes (file : GeneratedFile) (outcomes : List Outcome) : GeneratedFile :=
  { file with
    source := file.source ++ String.join (outcomes.map Outcome.text)
    types := file.types ++ outcomes.flatMap Outcome.reports
    diagnostics := file.diagnostics ++ outcomes.flatMap Outcome.diagnostics }

/-- Outcomes are added to a file one by one. -/
theorem addOutcomes_cons (file : GeneratedFile) (outcome : Outcome) (outcomes : List Outcome) :
    addOutcomes file (outcome :: outcomes) = addOutcomes (addOutcomes file [outcome]) outcomes := by
  simp [addOutcomes, String.append_assoc]

/-- Types whose constants can be counted are added to a file without a fault. -/
theorem addTypes_eq {o : Options} {types : List Enumeration}
    (h : ∀ e ∈ types, e.constants.length < wordCount) (seen : List String)
    (file : GeneratedFile) :
    addTypes o seen file types = .ok (addOutcomes file (outcomesFrom o seen types)) := by
  -- the file so far is general: each type adds to it what its outcome adds
  induction types generalizing seen file with
  | nil =>
    rw [addTypes, outcomesFrom]
    simp [addOutcomes]
  | cons e types ih =>
    have hrest : ∀ e' ∈ types, e'.constants.length < wordCount :=
      fun e' he' => h e' (List.mem_cons_of_mem e he')
    rw [addTypes, outcomesFrom, addOutcomes_cons]
    split
    · rw [ih hrest]
      simp [addOutcomes, Outcome.text, Outcome.reports, Outcome.diagnostics]
    · rw [generateType_eq (h e List.mem_cons_self), ok_bind, Outcome.ofType]
      cases e.generate o with
      | ok g =>
        simp only [Except.map]
        rw [ih hrest]
        simp [addOutcomes, Outcome.text, Outcome.reports, Outcome.diagnostics, String.append_assoc]
      | error err =>
        simp only [Except.map]
        rw [ih hrest]
        simp [addOutcomes, Outcome.text, Outcome.reports, Outcome.diagnostics, GeneratedFile.record]

/-- What has been gathered is the file of the outcomes once its text is checked. -/
theorem verify_addOutcomes (header : Header) (outcomes : List Outcome) :
    verify (addOutcomes ⟨header.text, [], true, []⟩ outcomes) = .ofOutcomes header outcomes := by
  rw [verify, addOutcomes, GeneratedFile.ofOutcomes]
  simp only [List.nil_append]
  cases syntaxFinding? (header.text ++ String.join (outcomes.map Outcome.text)) with
  | none => simp
  | some finding => rfl

/-- A file of types whose constants can be counted is generated without a fault. -/
theorem generate_eq {types : List Enumeration} (h : ∀ e ∈ types, e.constants.length < wordCount)
    (o : Options) (header : Header) :
    generate o header types = .ok (GeneratedFile.generate o header types) := by
  rw [generate, GeneratedFile.generate]
  cases o.validate with
  | error err => rfl
  | ok u =>
    simp only
    cases types.forM fun e => o.validateType e.name with
    | error err => rfl
    | ok u =>
      simp only [addTypes_eq h, ok_bind, verify_addOutcomes]
      rfl

/-! ## Runs -/

/-- A run on a document in memory meets no fault. -/
theorem run_eq {bytes : List UInt8} (h : bytes.length < wordCount) (o : Options)
    (policy : NamingPolicy) (header : Header) (requested : List String) :
    run o policy header requested bytes
      = .ok (do
        let m ← (Manifest.read bytes).mapError .manifest
        (m.generate requested policy o header).mapError .options) := by
  rw [run]
  cases hread : Manifest.read bytes with
  | error err => rfl
  | ok m =>
    have htypes : ∀ e ∈ (m.resolve requested policy).types, e.constants.length < wordCount :=
      fun e he => Nat.lt_of_le_of_lt
        (Manifest.length_constants_le_of_resolve hread requested policy e he) h
    simp only [generate_eq htypes, ok_bind]
    show _ = Except.ok (((GeneratedFile.generate o header (m.resolve requested policy).types).map
      ((m.resolve requested policy).errors.foldl GeneratedFile.record)).mapError NoFile.options)
    cases GeneratedFile.generate o header (m.resolve requested policy).types <;> rfl

/-- Whatever the bytes of a manifest, the requested types, the policy, the options and the header
are, a run reads lists and texts inside their bounds, cuts texts between characters and counts
within machine words: the checked run ends with the file or the error that the run ends with. In the
same way every query of the plan of some members is answered, be it for the value of a name or for
the name of a value. The length of a document or of a list in memory is a machine word. -/
theorem run_and_queries_meet_no_fault {bytes : List UInt8} (hbytes : bytes.length < wordCount)
    {members : List Member} (hmembers : members.length < wordCount) :
    (∀ o policy header requested, run o policy header requested bytes
        = .ok (do
          let m ← (Manifest.read bytes).mapError .manifest
          (m.generate requested policy o header).mapError .options))
      ∧ (∀ thresholds name, value? (.select members thresholds) name
        = .ok ((LookupPlan.select members thresholds).value? name))
      ∧ ∀ runThreshold v, FitsWord v → (Plan.select members runThreshold >>= (·.name? v))
        = .ok ((DisplayPlan.select members runThreshold).name? v) := by
  refine ⟨run_eq hbytes, value?_select hmembers, fun runThreshold v hv => ?_⟩
  rw [Plan.select_eq hmembers, ok_bind]
  exact Plan.name?_select hmembers runThreshold hv

/-- A document with two runs of values, a value that is given twice, and a name that is no ASCII
text. -/
def dialDocument : String :=
  "\x7b\"schema_version\":\"stringer.manifest@0.1.0\",\"types\":[\x7b\"name\":\"Dial\","
    ++ "\"kind\":\"u8\",\"values\":[\x7b\"name\":\"Far\",\"value\":255\x7d,"
    ++ "\x7b\"name\":\"Low\",\"value\":0,\"display\":\"é\"\x7d,"
    ++ "\x7b\"name\":\"High\",\"value\":1\x7d,\x7b\"name\":\"Top\",\"value\":1\x7d]\x7d]\x7d"

/-- The manifest in the document. -/
def dialManifest : Manifest :=
  ⟨manifestSchemaVersion, [⟨"Dial", "u8",
    [{ name := "Far", number := .integer 255 },
      { name := "Low", number := .integer 0, display := some "é" },
      { name := "High", number := .integer 1 }, { name := "Top", number := .integer 1 }]⟩]⟩

/-- The document of the example is a manifest. -/
theorem read_dialDocument : Manifest.read dialDocument.toUTF8.toList = .ok dialManifest := by
  decide +kernel

/-- Options with a lookup function, and with one run at most that is tested by its range. -/
def dialOptions : Options :=
  { lookupTemplate := "find\x7b\x7d", runThreshold := 1 }

/-- The options of the example are accepted. -/
theorem exists_generate_dialManifest :
    ∃ file, dialManifest.generate ["Dial", "Knob"] {} dialOptions {} = .ok file :=
  ⟨_, congrArg (Except.map _) (generate_eq_ok_iff.2 ⟨by decide, by decide +kernel, rfl⟩)⟩

/-- Members at both ends of a kind. -/
def dialEnds : List Member :=
  [⟨1, .ofInt true "Least" "Dial::LEAST" (-9223372036854775808)⟩,
    ⟨0, .ofInt true "é" "Dial::MOST" 9223372036854775807⟩]

/-- A search by halving in the example, for a name of two bytes. -/
theorem value?_select_dialEnds :
    (LookupPlan.select dialEnds (0, 2)).value? "é" = some 9223372036854775807 := by
  rw [LookupPlan.value?, LookupPlan.find?_select]
  cases hentry : (distinctNames dialEnds).find? (·.name == "é") with
  | none =>
    exact absurd rfl (find?_distinctNames_eq_none.1 hentry dialEnds[1] (by decide))
  | some entry =>
    obtain ⟨m, hm, rfl, hname, -⟩ := find?_distinctNames_eq_some hentry
    have hvalue : ∀ m ∈ dialEnds, m.name = "é" → m.value = 9223372036854775807 := by decide
    exact congrArg some (hvalue m hm hname)

/-- A file is generated, though a requested type is missing, and members are found in both
directions. -/
theorem run_and_queries_meet_no_fault_dial :
    dialDocument.toUTF8.toList.length < wordCount ∧ dialEnds.length < wordCount
      ∧ (∃ file, run dialOptions {} {} ["Dial", "Knob"] dialDocument.toUTF8.toList
        = .ok (.ok file))
      ∧ value? (.select dialEnds (0, 2)) "é" = .ok (some 9223372036854775807)
      ∧ (Plan.select dialEnds 2 >>= (·.name? 9223372036854775807)) = .ok (some "é") := by
  have hbytes : dialDocument.toUTF8.toList.length < wordCount := by decide +kernel
  have hmembers : dialEnds.length < wordCount := by decide
  obtain ⟨hrun, hvalue, hname⟩ := run_and_queries_meet_no_fault hbytes hmembers
  obtain ⟨file, hfile⟩ := exists_generate_dialManifest
  refine ⟨hbytes, hmembers, ⟨file, ?_⟩, ?_, ?_⟩
  · rw [hrun, read_dialDocument]
    show Except.ok ((dialManifest.generate ["Dial", "Knob"] {} dialOptions {}).mapError _) = _
    rw [hfile]
    rfl
  · rw [hvalue, value?_select_dialEnds]
  · have hincreasing : Increasing dialEnds := ⟨by decide, by decide⟩
    rw [hname 2 _ ⟨by decide, by decide⟩, DisplayPlan.name?_select hincreasing]
    rfl

end EnumNames.Checked
