import EnumNames.Command.Start
import EnumNames.Proofs.Command.Agreement
import EnumNames.Proofs.Disk.Files

/-!
# Files that a run touches

A run leaves all files as they are but for its output, which it writes last, as a whole, and only if
there is code to write. This holds for every store whose operations change what they should.

* `AllOrNothing`: what a step that may fail does to the files.
* `allOrNothing_deliver`: a delivery keeps all files, or it ends in writing the output.
* `files_start`: what becomes of the files in a run, whatever the arguments are.
-/

namespace EnumNames.Command

open FileStore FileView

variable {σ Place : Type} [FileView σ Place] {R R' : σ → σ → Prop} {ε ε' α β : Type}

/-! ## Steps that may fail -/

/-- A step that succeeds changes the state in a given way, a step that fails changes no file. -/
def AllOrNothing (R : σ → σ → Prop) (step : StateM σ (Except ε α)) : Prop :=
  ∀ s, match step s with
    | (.ok _, s') => R s s'
    | (.error _, s') => SameFiles s s'

theorem allOrNothing_pure (answer : Except ε α) :
    AllOrNothing SameFiles (pure answer : StateM σ (Except ε α)) := by
  intro s
  cases answer <;> exact refl_of SameFiles s

theorem allOrNothing_error (e : ε) : AllOrNothing R (pure (.error e) : StateM σ (Except ε α)) :=
  fun s => refl_of SameFiles s

/-- A step that changes the state in one way changes it in every wider way. -/
theorem AllOrNothing.mono {step : StateM σ (Except ε α)} (h : AllOrNothing R step)
    (hR : ∀ s s', R s s' → R' s s') : AllOrNothing R' step := by
  intro s
  have hs := h s
  generalize step s = result at hs ⊢
  obtain ⟨e | a, s'⟩ := result
  · exact hs
  · exact hR s s' hs

theorem AllOrNothing.map {step : StateM σ (Except ε α)} (h : AllOrNothing R step) (f : α → β) :
    AllOrNothing R (do return (← step).map f) := by
  intro s
  have hs := h s
  rw [bind_apply]
  generalize step s = result at hs ⊢
  obtain ⟨e | a, s'⟩ := result
  · exact hs
  · exact hs

/-- How a failure is worded changes no file. -/
theorem AllOrNothing.mapError {step : StateM σ (Except ε α)} (h : AllOrNothing R step)
    (f : ε → ε') : AllOrNothing R (do return (← step).mapError f) := by
  intro s
  have hs := h s
  rw [bind_apply]
  generalize step s = result at hs ⊢
  obtain ⟨e | a, s'⟩ := result
  · exact hs
  · exact hs

/-- What happens to the files after a step that changes none of them. -/
theorem AllOrNothing.after {step : StateM σ α} {next : α → StateM σ (Except ε β)}
    (h : Changes SameFiles step) (hnext : ∀ a, AllOrNothing R (next a))
    (hR : ∀ s s₁ s', SameFiles s s₁ → R s₁ s' → R s s') : AllOrNothing R (step >>= next) := by
  intro s
  have hsame := h s
  have hs := hnext (step s).1 (step s).2
  rw [bind_apply]
  generalize (next (step s).1) (step s).2 = result at hs ⊢
  obtain ⟨e | b, s'⟩ := result
  · exact trans_of SameFiles hsame hs
  · exact hR s _ s' hsame hs

/-! ## Delivering -/

variable [FileStore (StateM σ)] {s s' s₁ : σ} {v : Invocation} {g : Generated}
  {file : GeneratedFile} {path source : String} {content : List UInt8} {arguments : List String}

/-- The files are as before until the last operation, which writes a text. -/
def EndsInWrite (path : String) (content : List UInt8) (s s' : σ) : Prop :=
  ∃ s₁, SameFiles s s₁
    ∧ (write path content : StateM σ (Except FileError Unit)) s₁ = (.ok (), s')

/-- Steps that change no file may stand in front of the write. -/
theorem EndsInWrite.of_sameFiles (h : SameFiles s s₁) (hends : EndsInWrite path content s₁ s') :
    EndsInWrite path content s s' := by
  obtain ⟨s₂, hsame, hwrite⟩ := hends
  exact ⟨s₂, trans_of SameFiles h hsame, hwrite⟩

/-- What a delivery does to the files. Nothing is written without an output, for a check, or if no
type has code. -/
inductive Delivered (v : Invocation) (file : GeneratedFile) (s s' : σ) : Prop
  | kept (reason : v.output = none ∨ v.check = true ∨ file.generatedCount = 0)
      (same : SameFiles s s')
  | written (path : String) (output : v.output = some path) (check : v.check = false)
      (generatedCount : 0 < file.generatedCount)
      (ends : EndsInWrite path file.source.toUTF8.toList s s')

theorem Delivered.of_sameFiles (h : SameFiles s s₁) (hdelivered : Delivered v file s₁ s') :
    Delivered v file s s' := by
  cases hdelivered with
  | kept hreason hsame => exact .kept hreason (trans_of SameFiles h hsame)
  | written path houtput hcheck hcount hends =>
    exact .written path houtput hcheck hcount (hends.of_sameFiles h)

variable [LawfulStore σ]

/-- A write at the end changes one file. -/
theorem EndsInWrite.exists_writesFile (h : EndsInWrite path content s s') :
    ∃ p, WritesFile s s' path content p := by
  obtain ⟨s₁, hsame, hwrite⟩ := h
  obtain ⟨p, hp⟩ : ∃ p, WritesFile s₁ s' path content p :=
    LawfulStore.writesFile_write path content s₁ s' hwrite
  exact ⟨p, hp.of_sameFiles hsame⟩

theorem allOrNothing_write (path : String) (content : List UInt8) :
    AllOrNothing (EndsInWrite path content)
      (write path content : StateM σ (Except FileError Unit)) := by
  intro s
  rcases hwrite : (write path content : StateM σ (Except FileError Unit)) s with ⟨e | _, s'⟩
  · exact LawfulStore.sameFiles_write path content s s' e hwrite
  · exact ⟨s, refl_of SameFiles s, hwrite⟩

/-- A check changes no file, whatever it finds. -/
theorem allOrNothing_checkOutput (path source : String) :
    AllOrNothing SameFiles (checkOutput path source : StateM σ (Except RunError Unit)) := by
  refine .after (LawfulStore.sameFiles_read path) (fun answer => ?_) fun _ _ _ => trans_of SameFiles
  obtain e | bytes := answer
  · exact allOrNothing_pure _
  · dsimp only
    cases Json.ofUtf8? bytes <;> exact allOrNothing_pure _

/-- Directories are made before the output is written, but they are no files. -/
theorem allOrNothing_writeOutput (path source : String) :
    AllOrNothing (EndsInWrite path source.toUTF8.toList)
      (writeOutput path source : StateM σ (Except RunError Unit)) := by
  have htext : AllOrNothing (EndsInWrite path source.toUTF8.toList)
      (writeText path source : StateM σ (Except RunError Unit)) :=
    (allOrNothing_write _ _).mapError _
  -- whatever is made before, the text is written at the end
  unfold writeOutput
  cases Disk.parent? path with
  | none => exact htext
  | some directory =>
    refine .after (sameFiles_makeDirectories directory) (fun answer => ?_)
      fun _ _ _ => EndsInWrite.of_sameFiles
    obtain e | _ := answer
    · exact allOrNothing_error _
    · exact htext

/-- A delivery that fails changes no file. -/
theorem allOrNothing_deliver (v : Invocation) (file : GeneratedFile) :
    AllOrNothing (Delivered v file) (deliver v file : StateM σ (Except RunError Delivery)) := by
  unfold deliver
  cases houtput : v.output with
  | none => exact (allOrNothing_pure _).mono fun _ _ => .kept (.inl houtput)
  | some path =>
    dsimp only
    by_cases hcheck : v.check = true
    · rw [if_pos hcheck]
      exact ((allOrNothing_checkOutput path file.source).map _).mono
        fun _ _ => .kept (.inr (.inl hcheck))
    rw [if_neg hcheck]
    by_cases hcount : file.generatedCount = 0
    · rw [if_pos hcount]
      exact (allOrNothing_pure _).mono fun _ _ => .kept (.inr (.inr hcount))
    · rw [if_neg hcount]
      exact ((allOrNothing_writeOutput path file.source).map _).mono fun _ _ =>
        .written path houtput (by simpa using hcheck) (Nat.pos_of_ne_zero hcount)

/-! ## Generating -/

/-- The file of the manifest that a run reads, if the manifest can be read and the options are
valid. -/
def Generates (v : Invocation) (s : σ) (file : GeneratedFile) : Prop :=
  ∃ bytes m, ((read v.manifest : StateM σ (Except FileError (List UInt8))) s).1 = .ok bytes
    ∧ Manifest.read bytes = .ok m
    ∧ v.options.validate = .ok ()
    ∧ (∀ e ∈ (m.resolve v.types v.policy).types, v.options.validateType e.name = .ok ())
    ∧ m.generate v.types v.policy v.options (v.header bytes) = .ok file

/-- A run reads one file from a manifest. -/
theorem Generates.unique {file' : GeneratedFile} (h : Generates v s file)
    (h' : Generates v s file') : file' = file := by
  obtain ⟨bytes, m, hread, hm, -, -, hfile⟩ := h
  obtain ⟨bytes', m', hread', hm', -, -, hfile'⟩ := h'
  obtain rfl := Except.ok.inj (hread.symm.trans hread')
  obtain rfl := Except.ok.inj (hm.symm.trans hm')
  exact Except.ok.inj (hfile'.symm.trans hfile)

/-- Generating changes no file. -/
theorem sameFiles_generated (v : Invocation) :
    Changes SameFiles (generated v : StateM σ (Except RunError Generated)) := by
  unfold generated
  cases lacksOutput? v with
  | some name => exact changes_pure _
  | none =>
    refine Changes.bind (LawfulStore.sameFiles_read v.manifest) fun answer => ?_
    cases answer <;> exact changes_pure _

omit [LawfulStore σ] in
theorem generates_of_generated
    (h : ((generated v : StateM σ (Except RunError Generated)) s).1 = .ok g) :
    Generates v s g.file := by
  unfold generated at h
  cases hlacks : lacksOutput? v with
  | some name =>
    rw [hlacks] at h
    exact nomatch h
  | none =>
    rw [hlacks] at h
    dsimp only at h
    rw [bind_apply] at h
    cases hread : ((read v.manifest : StateM σ (Except FileError (List UInt8))) s).1 with
    | error e =>
      rw [hread] at h
      exact nomatch h
    | ok bytes =>
      rw [hread] at h
      obtain ⟨m, hm, hfile⟩ := exists_generateFor_iff.1 ⟨g, h, rfl⟩
      obtain ⟨hvalid, hnames, -⟩ := Manifest.generate_eq_ok_iff.1 hfile
      exact ⟨bytes, m, hread, hm, hvalid, hnames, hfile⟩

/-! ## Whole runs -/

/-- A run that delivered a file does not end with 2. -/
theorem exitCodeOf_ne_two (file : GeneratedFile) : exitCodeOf file ≠ 2 := by
  unfold exitCodeOf
  split <;> decide

/-- A run fails and keeps all files, or it delivers the file of the manifest. -/
theorem run_cases {r : Result} (h : (run v : StateM σ Result) s = (r, s')) :
    r.exitCode = 2 ∧ SameFiles s s'
      ∨ r.exitCode ≠ 2 ∧ ∃ file, Generates v s file ∧ Delivered v file s s' := by
  rw [run_apply] at h
  have hsame := sameFiles_generated v s
  rcases hg : (generated v : StateM σ (Except RunError Generated)) s with ⟨e | g, s₁⟩
  · rw [hg] at h hsame
    obtain ⟨rfl, rfl⟩ := Prod.mk.inj h
    exact .inl ⟨rfl, hsame⟩
  rw [hg] at h hsame
  have hgenerates := generates_of_generated (congrArg Prod.fst hg)
  have hdeliver := allOrNothing_deliver v g.file s₁
  dsimp only at h
  generalize (deliver v g.file : StateM σ (Except RunError Delivery)) s₁ = result at h hdeliver
  obtain ⟨e | delivery, s₂⟩ := result
  · obtain ⟨rfl, rfl⟩ := Prod.mk.inj h
    exact .inl ⟨rfl, trans_of SameFiles hsame hdeliver⟩
  · obtain ⟨rfl, rfl⟩ := Prod.mk.inj h
    exact .inr ⟨exitCodeOf_ne_two g.file, g.file, hgenerates, hdeliver.of_sameFiles hsame⟩

/-- Arguments that are not accepted start no run, and no file changes. -/
theorem start_cases {ending : Except UsageError Result}
    (h : (start arguments : StateM σ (Except UsageError Result)) s = (ending, s')) :
    (∃ e, Invocation.ofArguments arguments = .error e) ∧ SameFiles s s'
      ∨ ∃ v, Invocation.ofArguments arguments = .ok v
        ∧ (endCode ending = 2 ∧ SameFiles s s'
          ∨ endCode ending ≠ 2 ∧ ∃ file, Generates v s file ∧ Delivered v file s s') := by
  unfold start at h
  cases harguments : Invocation.ofArguments arguments with
  | error e =>
    rw [harguments] at h
    obtain ⟨rfl, rfl⟩ := Prod.mk.inj h
    exact .inl ⟨⟨e, rfl⟩, refl_of SameFiles s⟩
  | ok v =>
    rw [harguments] at h
    dsimp only at h
    rw [bind_apply] at h
    obtain ⟨rfl, rfl⟩ := Prod.mk.inj h
    exact .inr ⟨v, rfl, run_cases rfl⟩

/-- The arguments ask to write an output, and at least one type of the manifest has code for it. -/
structure HasCode (arguments : List String) (s : σ) (v : Invocation) (path : String)
    (file : GeneratedFile) : Prop where
  accepted : Invocation.ofArguments arguments = .ok v
  output : v.output = some path
  check : v.check = false
  generates : Generates v s file
  generatedCount : 0 < file.generatedCount

/-- Only an output is written, and only if there is code for it. -/
theorem sameFiles_or_endsInWrite {ending : Except UsageError Result}
    (h : (start arguments : StateM σ (Except UsageError Result)) s = (ending, s')) :
    SameFiles s s' ∨ endCode ending ≠ 2 ∧ ∃ v path file, HasCode arguments s v path file
      ∧ EndsInWrite path file.source.toUTF8.toList s s' := by
  rcases start_cases h with ⟨-, hsame⟩ | ⟨v, hv, ⟨-, hsame⟩ | ⟨hexit, file, hfile, hdelivered⟩⟩
  · exact .inl hsame
  · exact .inl hsame
  cases hdelivered with
  | kept _ hsame => exact .inl hsame
  | written path houtput hcheck hcount hends =>
    exact .inr ⟨hexit, v, path, file, ⟨hv, houtput, hcheck, hfile, hcount⟩, hends⟩

/-- If there is code for an output, a program that ends without an error has written it. -/
theorem HasCode.endsInWrite {ending : Except UsageError Result}
    (hcode : HasCode arguments s v path file)
    (h : (start arguments : StateM σ (Except UsageError Result)) s = (ending, s'))
    (hexit : endCode ending ≠ 2) : EndsInWrite path file.source.toUTF8.toList s s' := by
  rcases start_cases h with ⟨⟨e, he⟩, -⟩ | ⟨v', hv', ⟨herror, -⟩ | ⟨-, file', hfile', hdelivered⟩⟩
  · exact nomatch hcode.accepted.symm.trans he
  · exact absurd herror hexit
  obtain rfl := Except.ok.inj (hcode.accepted.symm.trans hv')
  -- the manifest is read from the same state, so it is the same file
  obtain rfl := hfile'.unique hcode.generates
  cases hdelivered with
  | kept hreason _ =>
    rcases hreason with hnone | hcheck | hcount
    · exact nomatch hcode.output.symm.trans hnone
    · exact nomatch hcode.check.symm.trans hcheck
    · exact absurd hcount (Nat.ne_of_gt hcode.generatedCount)
  | written path' houtput _ _ hends =>
    obtain rfl := Option.some.inj (hcode.output.symm.trans houtput)
    exact hends

/-- If a file is not as before when the program ends, there was code for an output, the file is the
one that the path of the output leads to, and it holds all of the code. If there was code for an
output, the output was written last, unless the program ended with 2. All files are as before if it
ended with 2, made a check, or found no type with code. -/
theorem files_start (arguments : List String) (s s' : σ) (ending : Except UsageError Result)
    (h : (start arguments : StateM σ (Except UsageError Result)) s = (ending, s')) :
    (∀ p, file? s' p ≠ file? s p → endCode ending ≠ 2
      ∧ ∃ v path file, HasCode arguments s v path file ∧ place? s' path = some p
        ∧ file? s' p = some file.source.toUTF8.toList)
    ∧ (∀ v path file, HasCode arguments s v path file → endCode ending ≠ 2 →
      EndsInWrite path file.source.toUTF8.toList s s'
        ∧ ∃ p, WritesFile s s' path file.source.toUTF8.toList p)
    ∧ (endCode ending = 2 → SameFiles s s')
    ∧ (∀ v, Invocation.ofArguments arguments = .ok v → v.check = true → SameFiles s s')
    ∧ (∀ v file, Invocation.ofArguments arguments = .ok v → Generates v s file →
      (∀ r ∈ file.types, r.ok = false) → SameFiles s s') := by
  have hcases := sameFiles_or_endsInWrite h
  refine ⟨fun p hp => ?_, fun v path file hcode hexit => ?_, fun hexit => ?_, fun v hv hcheck => ?_,
    fun v file hv hfile hfailed => ?_⟩
  · -- only the place of the output can have changed
    rcases hcases with hsame | ⟨hexit, v, path, file, hcode, hends⟩
    · exact absurd (hsame p) hp
    obtain ⟨p', hwrites⟩ := hends.exists_writesFile
    obtain rfl : p = p' := by
      by_contra hne
      exact hp (hwrites.other p hne)
    exact ⟨hexit, v, path, file, hcode, hwrites.place, hwrites.content⟩
  · have hends := hcode.endsInWrite h hexit
    exact ⟨hends, hends.exists_writesFile⟩
  · exact hcases.resolve_right fun hwritten => hwritten.1 hexit
  · refine hcases.resolve_right ?_
    rintro ⟨-, v', path, file, hcode, -⟩
    obtain rfl := Except.ok.inj (hcode.accepted.symm.trans hv)
    exact nomatch hcode.check.symm.trans hcheck
  · refine hcases.resolve_right ?_
    rintro ⟨-, v', path, file', hcode, -⟩
    obtain rfl := Except.ok.inj (hcode.accepted.symm.trans hv)
    obtain rfl := hfile.unique hcode.generates
    -- code that is written comes from a type that did not fail
    obtain ⟨r, hr, hok⟩ := List.countP_pos_iff.1 hcode.generatedCount
    exact absurd hok (by simp [hfailed r hr])

/-- The program writes the file of a manifest next to it. -/
theorem files_start_gauge : ∃ ending d' file l,
    (start ["--manifest", "m.json", "--output", "out.rs"] :
      StateM Disk (Except UsageError Result)) (manifestDisk gaugeDocument) = (ending, d')
      ∧ endCode ending = 0
      ∧ Generates writingRun (manifestDisk gaugeDocument) file
      ∧ WritesFile (manifestDisk gaugeDocument) d' "out.rs" file.source.toUTF8.toList l := by
  obtain ⟨g, hg, hok, hcount⟩ := exists_generatedOn_gauge
  obtain ⟨d', -, hrun⟩ := runOn_writingRun hg hcount
  have hgenerates : Generates writingRun (manifestDisk gaugeDocument) g.file :=
    generates_of_generated (by rw [generated_eq]; exact hg)
  have hstart : (start ["--manifest", "m.json", "--output", "out.rs"] :
      StateM Disk (Except UsageError Result)) (manifestDisk gaugeDocument)
      = (.ok (.success writingRun g {}), d') := by
    unfold start
    rw [ofArguments_writingRun]
    dsimp only
    rw [bind_apply]
    exact congrArg (fun p => (Except.ok p.1, p.2)) hrun
  have hcode : HasCode ["--manifest", "m.json", "--output", "out.rs"]
      (manifestDisk gaugeDocument) writingRun "out.rs" g.file :=
    ⟨ofArguments_writingRun, rfl, rfl, hgenerates, hcount⟩
  have hexit : endCode (.ok (.success writingRun g {})) = 0 := exitCodeOf_eq_zero_iff.2 hok
  obtain ⟨l, hl⟩ := ((files_start _ _ d' _ hstart).2.1 _ _ _ hcode (by simp [hexit])).2
  exact ⟨_, d', g.file, l, hstart, hexit, hgenerates, hl⟩

end EnumNames.Command
