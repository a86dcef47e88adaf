import EnumNames.Command.Run
import EnumNames.Proofs.Disk.Change
import EnumNames.Proofs.Manifest.Account

/-!
# Runs on a disk

A run reads the manifest, generates the file, which depends on the manifest alone, and delivers it.
Only a delivery into an output changes the disk: it makes directories and writes the whole text.

* `runOn`: the result of a run and the disk after it.
* `generatedOn`: what a run generates from the files of a disk.
* `runOn_of_deliver`, `exists_of_runOn`: a run ends as its delivery does.
-/

namespace EnumNames.Command

variable {v : Invocation} {d d' : Disk} {g : Generated} {file : GeneratedFile}
  {path source : String} {bytes : List UInt8}

/-- The result of a run on a disk, and the disk after the run. -/
def runOn (v : Invocation) (d : Disk) : Result × Disk :=
  (run v : StateM Disk Result) d

/-- What becomes of a delivery on a disk, and the disk after it. -/
def deliverOn (v : Invocation) (file : GeneratedFile) (d : Disk) : Except RunError Delivery × Disk :=
  (deliver v file : StateM Disk (Except RunError Delivery)) d

/-- What becomes of an output that is written on a disk, and the disk after it. -/
def writeOutputOn (path source : String) (d : Disk) : Except RunError Unit × Disk :=
  (writeOutput path source : StateM Disk (Except RunError Unit)) d

/-! ## Generating -/

/-- What a run generates from the files of a disk. -/
def generatedOn (v : Invocation) (d : Disk) : Except RunError Generated :=
  match lacksOutput? v with
  | some name => .error (.needsOutput name)
  | none =>
    match d.read v.manifest with
    | .error e => .error (.unreadableManifest v.manifest e)
    | .ok bytes => generateFor v bytes

/-- Generating leaves the disk as it is. -/
theorem generated_eq (v : Invocation) (d : Disk) :
    (generated v : StateM Disk (Except RunError Generated)) d = (generatedOn v d, d) := by
  unfold generated generatedOn
  cases lacksOutput? v with
  | some name => rfl
  | none =>
    dsimp only
    rw [bind_apply, read_apply]
    cases d.read v.manifest <;> rfl

/-- A run generates if it has an output to check, can read its manifest and accepts its options. -/
theorem generatedOn_eq_ok_iff : generatedOn v d = .ok g
    ↔ lacksOutput? v = none ∧ ∃ bytes, d.read v.manifest = .ok bytes ∧ generateFor v bytes = .ok g := by
  unfold generatedOn
  cases lacksOutput? v with
  | some name => simp
  | none =>
    cases d.read v.manifest with
    | error e => simp
    | ok bytes => simp

/-- The header of the file that is made from the bytes of a manifest. -/
def Invocation.header (v : Invocation) (bytes : List UInt8) : Header :=
  ⟨v.headerArguments, some (Digest.Sha256.hex bytes)⟩

/-- The digits of a digest are no line breaks. -/
theorem lineFeed_notMem_hex (message : List UInt8) : '\n' ∉ (Digest.Sha256.hex message).toList := by
  have hdigit : ∀ n < 16, '\n' ≠ Nat.digitChar n := by
    decide
  have hdigits : ∀ n, '\n' ∉ Nat.toDigits 16 n := by
    intro n
    induction n using Nat.strongRecOn with
    | ind n ih =>
      by_cases hn : n < 16
      · rw [Nat.toDigits_of_lt_base hn, List.mem_singleton]
        exact hdigit n hn
      · rw [Nat.toDigits_of_base_le (by decide) (Nat.le_of_not_lt hn), List.mem_append, not_or,
          List.mem_singleton]
        exact ⟨ih _ (Nat.div_lt_self (by omega) (by decide)), hdigit _ (Nat.mod_lt _ (by decide))⟩
  rw [Digest.Sha256.hex, String.toList_ofList, List.mem_flatMap]
  rintro ⟨x, -, hx⟩
  rcases List.mem_append.1 hx with hzero | hlast
  · exact absurd (List.eq_of_mem_replicate hzero) (by decide)
  · exact hdigits _ hlast

/-- A header keeps to its line if no argument breaks it. -/
theorem isOneLine_header (h : '\n' ∉ (Text.trim v.headerArguments).toList)
    (bytes : List UInt8) : (v.header bytes).IsOneLine := by
  refine ⟨h, fun digest hdigest => ?_⟩
  rw [← Option.some.inj hdigest]
  exact lineFeed_notMem_hex bytes

/-- What is generated for the bytes of a manifest is the file of its types. -/
theorem exists_generateFor_iff : (∃ g, generateFor v bytes = .ok g ∧ g.file = file)
    ↔ ∃ m, Manifest.read bytes = .ok m
      ∧ m.generate v.types v.policy v.options (v.header bytes) = .ok file := by
  unfold generateFor Manifest.generate
  simp only [bind_eq_ok_iff, mapError_eq_ok_iff, map_eq_ok_iff]
  constructor
  · rintro ⟨g, ⟨m, hm, file', hfile', hg⟩, rfl⟩
    rw [← Except.ok.inj hg]
    exact ⟨m, hm, file', hfile', rfl⟩
  · rintro ⟨m, hm, file', hfile', rfl⟩
    exact ⟨_, ⟨m, hm, file', hfile', rfl⟩, rfl⟩

/-- A run that finds a manifest on the disk generates the file of its types. -/
theorem exists_generatedOn (hlacks : lacksOutput? v = none) (hread : d.read v.manifest = .ok bytes)
    {m : Manifest} (hm : Manifest.read bytes = .ok m)
    (hfile : m.generate v.types v.policy v.options (v.header bytes) = .ok file) :
    ∃ g, generatedOn v d = .ok g ∧ g.file = file := by
  obtain ⟨g, hg, hgfile⟩ := exists_generateFor_iff.2 ⟨m, hm, hfile⟩
  exact ⟨g, generatedOn_eq_ok_iff.2 ⟨hlacks, bytes, hread, hg⟩, hgfile⟩

/-! ## Delivering -/

/-- Compares a text with the output on a disk. -/
def compareOn (path source : String) (d : Disk) : Except RunError Unit :=
  match d.read path with
  | .error e => .error (.unreadableOutput path e)
  | .ok bytes =>
    match Json.ofUtf8? bytes with
    | none => .error (.unreadableOutput path .notText)
    | some current => if current = source then .ok () else .error (.outputDiffers path)

/-- Comparing leaves the disk as it is. -/
theorem checkOutput_eq (path source : String) (d : Disk) :
    (checkOutput path source : StateM Disk (Except RunError Unit)) d
      = (compareOn path source d, d) := by
  unfold checkOutput compareOn
  rw [bind_apply, read_apply]
  cases d.read path with
  | error e => rfl
  | ok bytes =>
    dsimp only
    cases Json.ofUtf8? bytes <;> rfl

/-- Without an output, the source is printed. -/
theorem deliverOn_stdout (houtput : v.output = none) :
    deliverOn v file d = (.ok { stdout := file.source }, d) := by
  unfold deliverOn deliver
  rw [houtput]
  rfl

/-- A check compares the source with the output. -/
theorem deliverOn_check (houtput : v.output = some path) (hcheck : v.check = true) :
    deliverOn v file d = ((compareOn path file.source d).map fun _ => {}, d) := by
  unfold deliverOn deliver
  rw [houtput]
  dsimp only
  rw [if_pos hcheck, bind_apply, checkOutput_eq]
  rfl

/-- If no type has code, the output is left as it is. -/
theorem deliverOn_untouched (houtput : v.output = some path) (hcheck : v.check = false)
    (hcount : file.generatedCount = 0) :
    deliverOn v file d = (.ok { log := [.untouched path] }, d) := by
  unfold deliverOn deliver
  rw [houtput]
  dsimp only
  rw [if_neg (by simp [hcheck]), if_pos hcount]
  rfl

/-- If a type has code, the output is written. -/
theorem deliverOn_write (houtput : v.output = some path) (hcheck : v.check = false)
    (hcount : file.generatedCount ≠ 0) :
    deliverOn v file d = ((writeOutputOn path file.source d).1.map fun _ => {},
      (writeOutputOn path file.source d).2) := by
  unfold deliverOn deliver
  rw [houtput]
  dsimp only
  rw [if_neg (by simp [hcheck]), if_neg hcount]
  rfl

/-- A text is written as a whole, or the disk stays as it is. -/
theorem writeText_eq (path source : String) (d : Disk) :
    (writeText path source : StateM Disk (Except RunError Unit)) d
      = match d.write path source.toUTF8.toList with
        | .ok d' => (.ok (), d')
        | .error e => (.error (.unwritableOutput path e), d) := by
  unfold writeText
  rw [bind_apply, write_apply]
  unfold changeDisk
  dsimp only
  cases d.write path source.toUTF8.toList <;> rfl

/-- An output in the current directory is written as it is. -/
theorem writeOutputOn_of_write (hparent : Disk.parent? path = none)
    (h : d.write path source.toUTF8.toList = .ok d') :
    writeOutputOn path source d = (.ok (), d') := by
  unfold writeOutputOn writeOutput
  rw [hparent]
  dsimp only
  rw [writeText_eq, h]

/-- An output is written as a whole, after directories have been made for it. -/
theorem exists_of_writeOutputOn (h : writeOutputOn path source d = (.ok (), d')) :
    ∃ d₁, d.AddsDirectories d₁ ∧ d₁.write path source.toUTF8.toList = .ok d' := by
  have hwrite : ∀ d₁ : Disk,
      (writeText path source : StateM Disk (Except RunError Unit)) d₁ = (.ok (), d')
        → d₁.write path source.toUTF8.toList = .ok d' := by
    intro d₁ hd₁
    rw [writeText_eq] at hd₁
    split at hd₁
    · next d₂ hd₂ => rw [hd₂, (Prod.mk.inj hd₁).2]
    · cases (Prod.mk.inj hd₁).1
  unfold writeOutputOn writeOutput at h
  cases hparent : Disk.parent? path with
  | none =>
    rw [hparent] at h
    exact ⟨d, .refl d, hwrite d h⟩
  | some directory =>
    rw [hparent] at h
    dsimp only at h
    have hadds := addsOnly_makeDirectories directory d
    rw [bind_apply] at h
    generalize (FileStore.makeDirectories directory : StateM Disk (Except FileError Unit)) d = made
      at h hadds
    obtain ⟨e | _, d₁⟩ := made
    · cases (Prod.mk.inj h).1
    · exact ⟨d₁, hadds, hwrite d₁ h⟩

/-! ## Whole runs -/

/-- The result of a run that did its work. -/
def Result.success (v : Invocation) (g : Generated) (delivery : Delivery) : Result where
  exitCode := exitCodeOf g.file
  stdout := delivery.stdout ++ if v.reportJson then reportText v g.file else ""
  log := visibleLines v.logLevel
    (g.events.flatMap LogLine.ofEvent ++ delivery.log ++ [.done g.file])
  error := none

/-- A run ends as its delivery does, whatever the store is. -/
theorem run_apply {σ : Type} [FileStore (StateM σ)] (v : Invocation) (s : σ) :
    (run v : StateM σ Result) s =
    match (generated v : StateM σ (Except RunError Generated)) s with
    | (.error e, s') => (.failure [] e, s')
    | (.ok g, s') =>
      match (deliver v g.file : StateM σ (Except RunError Delivery)) s' with
      | (.error e, s'') =>
        (.failure (visibleLines v.logLevel (g.events.flatMap LogLine.ofEvent)) e, s'')
      | (.ok delivery, s'') => (.success v g delivery, s'') := by
  unfold run
  rw [bind_apply]
  rcases (generated v : StateM σ (Except RunError Generated)) s with ⟨e | g, s'⟩
  · rfl
  · dsimp only
    rw [bind_apply]
    rcases (deliver v g.file : StateM σ (Except RunError Delivery)) s' with ⟨e | delivery, s''⟩
      <;> rfl

/-- A run fails before it generates, or it ends as its delivery does. -/
theorem runOn_eq (v : Invocation) (d : Disk) : runOn v d =
    match generatedOn v d with
    | .error e => (.failure [] e, d)
    | .ok g =>
      match deliverOn v g.file d with
      | (.error e, d') => (.failure (visibleLines v.logLevel (g.events.flatMap LogLine.ofEvent)) e, d')
      | (.ok delivery, d') => (.success v g delivery, d') := by
  unfold runOn deliverOn
  rw [run_apply, generated_eq]
  cases generatedOn v d with
  | error e => rfl
  | ok g =>
    dsimp only
    rcases (deliver v g.file : StateM Disk (Except RunError Delivery)) d with ⟨e | delivery, d'⟩
      <;> rfl

/-- A run whose delivery succeeds ends with the report of the file. -/
theorem runOn_of_deliver {delivery : Delivery} (hg : generatedOn v d = .ok g)
    (h : deliverOn v g.file d = (.ok delivery, d')) : runOn v d = (.success v g delivery, d') := by
  rw [runOn_eq, hg]
  dsimp only
  rw [h]

/-- A run whose delivery fails logs what was generated and ends with the error. -/
theorem runOn_of_deliver_error {e : RunError} (hg : generatedOn v d = .ok g)
    (h : deliverOn v g.file d = (.error e, d')) :
    runOn v d
      = (.failure (visibleLines v.logLevel (g.events.flatMap LogLine.ofEvent)) e, d') := by
  rw [runOn_eq, hg]
  dsimp only
  rw [h]

/-- A run that does not end with an error has generated and delivered a file. -/
theorem exists_of_runOn {r : Result} (h : runOn v d = (r, d')) (hr : r.exitCode ≠ 2) :
    ∃ g delivery, generatedOn v d = .ok g ∧ deliverOn v g.file d = (.ok delivery, d')
      ∧ r = .success v g delivery := by
  rw [runOn_eq] at h
  cases hg : generatedOn v d with
  | error e =>
    rw [hg] at h
    exact absurd (congrArg Result.exitCode (congrArg Prod.fst h).symm) hr
  | ok g =>
    rw [hg] at h
    dsimp only at h
    rcases hdeliver : deliverOn v g.file d with ⟨e | delivery, d''⟩
    · rw [hdeliver] at h
      exact absurd (congrArg Result.exitCode (congrArg Prod.fst h).symm) hr
    · rw [hdeliver] at h
      obtain ⟨hresult, rfl⟩ := Prod.mk.inj h
      exact ⟨g, delivery, rfl, hdeliver, hresult.symm⟩

/-! ## A disk with one manifest -/

/-- A disk with nothing but a document. -/
def manifestDisk (document : String) : Disk :=
  ⟨[(["m.json"], .file document.toUTF8.toList)], []⟩

/-- The disk holds the document under its name. -/
theorem read_manifestDisk (document : String) :
    (manifestDisk document).read "m.json" = .ok document.toUTF8.toList := rfl

/-- A document with one type. -/
def gaugeDocument : String :=
  "\x7b\"schema_version\":\"stringer.manifest@0.1.0\",\"types\":[\x7b\"name\":\"Gauge\","
    ++ "\"kind\":\"u8\",\"values\":[\x7b\"name\":\"Low\",\"value\":1\x7d]\x7d]\x7d"

/-- The manifest in the document. -/
def gaugeManifest : Manifest :=
  ⟨manifestSchemaVersion, [⟨"Gauge", "u8", [{ name := "Low", number := .integer 1 }]⟩]⟩

/-- The document is the manifest with one type. -/
theorem read_gaugeDocument : Manifest.read gaugeDocument.toUTF8.toList = .ok gaugeManifest := by
  decide +kernel

end EnumNames.Command
