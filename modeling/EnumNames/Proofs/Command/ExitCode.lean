import EnumNames.Proofs.Command.Run

/-!
# Exit codes

A run that can read and write what it has to ends with 0 or 1, and the code tells whether all names
that it asked for have their code in a text that passes the syntax check.

* `exitCode_runOn`: the exit code is that of the generated file.
* `exists_generate_account`: what becomes of the names that are asked for, in the file and in the
  exit code.
-/

namespace EnumNames.Command

variable {v : Invocation} {d : Disk} {g : Generated} {file : GeneratedFile} {m : Manifest}
  {requested : List String} {policy : NamingPolicy} {o : Options}

/-- The exit code is 0 for the files that are fine. -/
theorem exitCodeOf_eq_zero_iff : exitCodeOf file = 0 ↔ file.ok := by
  unfold exitCodeOf
  split <;> simp_all

theorem exitCodeOf_eq_one_iff : exitCodeOf file = 1 ↔ ¬ file.ok := by
  unfold exitCodeOf
  split <;> simp_all

/-- The output, if there is one and code for it, can be written on a disk. -/
def CanDeliver (v : Invocation) (file : GeneratedFile) (d : Disk) : Prop :=
  ∀ path, v.output = some path → file.generatedCount ≠ 0 →
    (writeOutputOn path file.source d).1 = .ok ()

/-- A file that can be delivered is delivered. -/
theorem exists_deliverOn (hcheck : v.check = false) (h : CanDeliver v file d) :
    ∃ delivery d', deliverOn v file d = (.ok delivery, d') := by
  cases houtput : v.output with
  | none => exact ⟨_, _, deliverOn_stdout houtput⟩
  | some path =>
    by_cases hcount : file.generatedCount = 0
    · exact ⟨_, _, deliverOn_untouched houtput hcheck hcount⟩
    · refine ⟨{}, (writeOutputOn path file.source d).2, ?_⟩
      rw [deliverOn_write houtput hcheck hcount, h path houtput hcount]
      rfl

/-- The exit code is that of the generated file. -/
theorem exitCode_runOn (hcheck : v.check = false) (hg : generatedOn v d = .ok g)
    (h : CanDeliver v g.file d) : (runOn v d).1.exitCode = exitCodeOf g.file := by
  obtain ⟨delivery, d', hdeliver⟩ := exists_deliverOn hcheck h
  rw [runOn_of_deliver hg hdeliver]
  rfl

/-- For valid options there is a file. One error at most lists the names which the manifest does not
hold, in the order of the request; each other name that is asked for has its code in the file, or is
reported as refused. A run that can read and write what it has to ends with 0 if the text passes the
syntax check and no name is refused or unknown, and with 1 otherwise. -/
theorem exists_generate_account (hvalid : o.validate = .ok ())
    (hnames : ∀ e ∈ (m.resolve requested policy).types, o.validateType e.name = .ok ())
    (header : Header) :
    ∃ file, m.generate requested policy o header = .ok file
      ∧ (m.resolve requested policy).errors.filterMap InputError.unknownNames?
        = (if m.absent requested = [] then [] else [m.absent requested])
      ∧ (∀ name ∈ m.selectedNames requested, m.IsGenerated requested policy o file name
        ∨ file.Refuses name ∨ m.IsUnknown requested policy name)
      ∧ ∀ v d bytes, v.check = false → lacksOutput? v = none → d.read v.manifest = .ok bytes →
        Manifest.read bytes = .ok m → v.types = requested → v.policy = policy → v.options = o →
        v.header bytes = header → CanDeliver v file d →
        ((runOn v d).1.exitCode = 0 ↔ file.verified ∧ ∀ name ∈ m.selectedNames requested,
          ¬ file.Refuses name ∧ ¬ m.IsUnknown requested policy name)
        ∧ ((runOn v d).1.exitCode = 1 ↔ ¬ (file.verified ∧ ∀ name ∈ m.selectedNames requested,
          ¬ file.Refuses name ∧ ¬ m.IsUnknown requested policy name)) := by
  obtain ⟨file, hfile⟩ : ∃ file, m.generate requested policy o header = .ok file :=
    ⟨_, Manifest.generate_eq_ok_iff.2 ⟨hvalid, hnames, rfl⟩⟩
  refine ⟨file, hfile, Manifest.unknownNames_errors m requested policy,
    fun name hname => Manifest.isGenerated_or_refuses_or_isUnknown hfile hname, ?_⟩
  rintro v d bytes hcheck hlacks hread hm rfl rfl rfl rfl hdeliver
  obtain ⟨g, hg, rfl⟩ := exists_generatedOn hlacks hread hm hfile
  rw [exitCode_runOn hcheck hg hdeliver, exitCodeOf_eq_zero_iff,
    exitCodeOf_eq_one_iff, Manifest.ok_generate_iff hfile]
  exact ⟨Iff.rfl, Iff.rfl⟩

/-- A run that asks for a name which the manifest does not hold, next to one that it holds. -/
theorem exitCode_unknownType :
    (gaugeManifest.resolve ["Gauge", "Dial"] {}).errors.filterMap InputError.unknownNames?
        = [["Dial"]]
      ∧ (runOn { manifest := "m.json", types := ["Gauge", "Dial"] }
        (manifestDisk gaugeDocument)).1.exitCode = 1 := by
  obtain ⟨file, -, hunknown, -, hexit⟩ := exists_generate_account (m := gaugeManifest)
    (o := {}) rfl (fun _ _ => rfl)
    (Invocation.header { manifest := "m.json", types := ["Gauge", "Dial"] }
      gaugeDocument.toUTF8.toList)
  refine ⟨hunknown, ?_⟩
  have hcode := hexit _ _ _ rfl rfl (read_manifestDisk _) read_gaugeDocument rfl rfl rfl rfl
    (fun _ houtput => nomatch houtput)
  refine hcode.2.2 ?_
  rintro ⟨-, hnames⟩
  exact (hnames "Dial" (by decide)).2 (Manifest.isUnknown_iff.2 (by decide))

end EnumNames.Command
