import EnumNames.Proofs.Command.Arguments
import EnumNames.Proofs.Command.ExitCode
import EnumNames.Proofs.Text.Utf8

/-!
# Agreement of a run and the check after it

A run that writes its output leaves behind what a check with the same arguments compares it with.
The output must not be the manifest, and whether it is can only be told after the run, since a path
may lead through a directory that the run makes.

* `runOn_check_of_read`, `runOn_check_of_differs`: the two ways that a check ends.
* `read_of_runOn`: what the disk holds after an output is written.
* `check_agrees`: a check after a run ends as the run did, until the output is replaced.
* `success_upToDate`: after a run with exit code 0 the output is up to date, if any name was asked
  for.
-/

namespace EnumNames.Command

variable {v : Invocation} {d d' : Disk} {g : Generated} {file : GeneratedFile} {r : Result}
  {path source : String} {arguments : List String} {m : Manifest} {bytes : List UInt8}

/-! ## Checks -/

/-- A text compares well with the output exactly if the output holds it. -/
theorem compareOn_eq_ok_iff :
    compareOn path source d = .ok () ↔ d.read path = .ok source.toUTF8.toList := by
  unfold compareOn
  cases hread : d.read path with
  | error e => exact iff_of_false nofun nofun
  | ok content =>
    dsimp only
    cases htext : Json.ofUtf8? content with
    | none =>
      refine iff_of_false nofun fun h => ?_
      rw [Except.ok.inj h, Text.ofUtf8?_eq_some_iff.2 rfl] at htext
      exact nomatch htext
    | some current =>
      obtain rfl := Text.ofUtf8?_eq_some_iff.1 htext
      by_cases hcurrent : current = source
      · rw [hcurrent]
        exact iff_of_true (if_pos rfl) rfl
      · refine iff_of_false (by simp [hcurrent]) fun h => hcurrent ?_
        have hsame := Text.ofUtf8?_eq_some_iff.2 (Except.ok.inj h)
        rw [Text.ofUtf8?_eq_some_iff.2 rfl] at hsame
        exact Option.some.inj hsame

/-- A check generates the same. -/
theorem generatedOn_check (houtput : v.output = some path) (d : Disk) :
    generatedOn v.checking d = generatedOn v d := by
  have hlacks : ∀ w : Invocation, w.output = some path → lacksOutput? w = none := by
    intro w hw
    rw [lacksOutput?, hw]
    rfl
  unfold generatedOn
  rw [hlacks v houtput, hlacks v.checking (v.output_checking.trans houtput)]
  rfl

/-- What is generated depends on the manifest alone. -/
theorem generatedOn_congr (h : d'.read v.manifest = d.read v.manifest) :
    generatedOn v d' = generatedOn v d := by
  unfold generatedOn
  rw [h]

/-- A check of an output that is up to date. -/
theorem runOn_check_of_read (houtput : v.output = some path) (hg : generatedOn v d = .ok g)
    (hread : d.read path = .ok g.file.source.toUTF8.toList) :
    runOn v.checking d = (.success v.checking g {}, d) := by
  rw [← generatedOn_check houtput] at hg
  refine runOn_of_deliver hg ?_
  rw [deliverOn_check (v.output_checking.trans houtput) v.check_checking, compareOn_eq_ok_iff.2 hread]
  rfl

/-- A check of an output that is not up to date. -/
theorem runOn_check_of_differs (houtput : v.output = some path) (hg : generatedOn v d = .ok g)
    (hread : d.read path ≠ .ok g.file.source.toUTF8.toList) :
    ∃ log e, runOn v.checking d = (.failure log e, d) := by
  rw [← generatedOn_check houtput] at hg
  cases hcompare : compareOn path g.file.source d with
  | ok _ => exact absurd (compareOn_eq_ok_iff.1 hcompare) hread
  | error e =>
    refine ⟨_, e, runOn_of_deliver_error hg ?_⟩
    rw [deliverOn_check (v.output_checking.trans houtput) v.check_checking, hcompare]
    rfl

/-! ## Written outputs -/

/-- After a run that wrote its output, the output holds the text, and the manifest is as before. -/
theorem read_of_runOn (houtput : v.output = some path) (hcheck : v.check = false)
    (hrun : runOn v d = (r, d')) (hexit : r.exitCode ≠ 2) (hg : generatedOn v d = .ok g)
    (hcount : g.file.generatedCount ≠ 0) (hapart : ¬ d'.SameFile v.manifest path) :
    r.exitCode = exitCodeOf g.file ∧ d'.read path = .ok g.file.source.toUTF8.toList
      ∧ d'.read v.manifest = d.read v.manifest := by
  obtain ⟨g', delivery, hg', hdeliver, rfl⟩ := exists_of_runOn hrun hexit
  obtain rfl := Except.ok.inj (hg'.symm.trans hg)
  rw [deliverOn_write houtput hcheck hcount] at hdeliver
  obtain ⟨hdelivery, hdisk⟩ := Prod.mk.inj hdeliver
  obtain ⟨_, hwritten, -⟩ := map_eq_ok_iff.1 hdelivery
  -- directories are added first, then one file is written
  obtain ⟨d₁, hadds, hwrite⟩ := exists_of_writeOutputOn (Prod.ext hwritten hdisk)
  obtain ⟨-, bytes, hread, -⟩ := generatedOn_eq_ok_iff.1 hg
  have hapart₁ : ¬ d₁.SameFile v.manifest path :=
    fun hsame => hapart ((Disk.keepsDirectories_of_write hwrite).sameFile hsame)
  refine ⟨rfl, Disk.read_write hwrite, ?_⟩
  rw [hread, Disk.read_of_write hwrite (hadds.read_eq hread) hapart₁]

/-- After a run that wrote its output, a check with the same arguments finds no difference, ends with
the same exit code and changes nothing. Once the output is replaced, the check ends with 2 and leaves
the replacement in place. -/
theorem check_agrees (harguments : Invocation.ofArguments arguments = .ok v)
    (houtput : v.output = some path) (hcheck : v.check = false) (hrun : runOn v d = (r, d'))
    (hexit : r.exitCode = 0 ∨ r.exitCode = 1) (hg : generatedOn v d = .ok g)
    (hcount : 0 < g.file.generatedCount) (hapart : ¬ d'.SameFile v.manifest path) :
    Invocation.ofArguments ("--check" :: arguments) = .ok v.checking
      ∧ (∀ before after w, arguments = before ++ after →
        Invocation.ofArguments (before ++ "--check" :: after) = .ok w → w = v.checking)
      ∧ (∃ r', runOn v.checking d' = (r', d') ∧ r'.error = none
        ∧ r'.exitCode = r.exitCode)
      ∧ ∀ content, content ≠ g.file.source.toUTF8.toList → ∃ d'', d'.write path content = .ok d''
        ∧ ∃ r'', runOn v.checking d'' = (r'', d'') ∧ r''.exitCode = 2 := by
  have hexit' : r.exitCode ≠ 2 := by
    omega
  obtain ⟨hcode, hread, hmanifest⟩ := read_of_runOn houtput hcheck hrun hexit' hg
    (Nat.ne_of_gt hcount) hapart
  have hg' : generatedOn v d' = .ok g := by
    rw [generatedOn_congr hmanifest, hg]
  refine ⟨ofArguments_check harguments hcheck, ?_, ?_, fun content hcontent => ?_⟩
  · rintro before after w rfl hw
    exact eq_of_ofArguments_check harguments hcheck hw
  · exact ⟨_, runOn_check_of_read houtput hg' hread, rfl, hcode.symm⟩
  · obtain ⟨d'', hwrite⟩ := Disk.exists_write hread content
    obtain ⟨-, bytes, hbytes, -⟩ := generatedOn_eq_ok_iff.1 hg'
    have hg'' : generatedOn v d'' = .ok g := by
      rw [← hg']
      refine generatedOn_congr ?_
      rw [hbytes, Disk.read_of_write hwrite hbytes hapart]
    have hdiffers : d''.read path ≠ .ok g.file.source.toUTF8.toList := by
      rw [Disk.read_write hwrite]
      exact fun h => hcontent (Except.ok.inj h)
    obtain ⟨log, e, hrun''⟩ := runOn_check_of_differs houtput hg'' hdiffers
    exact ⟨d'', hwrite, _, hrun'', rfl⟩

/-- A run that writes the file of a manifest. -/
def writingRun : Invocation :=
  { manifest := "m.json", output := some "out.rs" }

theorem ofArguments_writingRun :
    Invocation.ofArguments ["--manifest", "m.json", "--output", "out.rs"] = .ok writingRun := by
  decide +kernel

/-- In one directory, different names are different files. -/
theorem not_sameFile_writingRun (h : d.current = []) : ¬ d.SameFile "m.json" "out.rs" := by
  have hmanifest : d.locate "m.json" = .ok ⟨["m.json"], false⟩ := by
    unfold Disk.locate
    rw [h]
    rfl
  have houtput : d.locate "out.rs" = .ok ⟨["out.rs"], false⟩ := by
    unfold Disk.locate
    rw [h]
    rfl
  rintro ⟨l, hl, hl'⟩
  rw [hmanifest] at hl
  rw [houtput] at hl'
  exact absurd (Except.ok.inj (hl.trans hl'.symm)) (by decide)

/-- The run writes its output next to the manifest. -/
theorem runOn_writingRun {document : String}
    (hg : generatedOn writingRun (manifestDisk document) = .ok g)
    (hcount : 0 < g.file.generatedCount) :
    ∃ d', d'.current = [] ∧ runOn writingRun (manifestDisk document)
      = (.success writingRun g {}, d') := by
  have hwrite : (manifestDisk document).write "out.rs" g.file.source.toUTF8.toList
      = .ok ((manifestDisk document).put ["out.rs"] (.file g.file.source.toUTF8.toList)) :=
    Disk.write_eq_ok_iff.2 ⟨_, none, rfl, rfl, nofun, rfl⟩
  have houtput := writeOutputOn_of_write (by decide +kernel) hwrite
  have hdeliver := deliverOn_write (v := writingRun) (d := manifestDisk document) rfl rfl
    (Nat.ne_of_gt hcount)
  rw [houtput] at hdeliver
  refine ⟨_, ?_, runOn_of_deliver hg hdeliver⟩
  rfl

/-- The file of the manifest with one type. -/
theorem exists_generatedOn_gauge : ∃ g,
    generatedOn writingRun (manifestDisk gaugeDocument) = .ok g ∧ g.file.ok
      ∧ 0 < g.file.generatedCount := by
  obtain ⟨file, hfile⟩ : ∃ file, gaugeManifest.generate [] {} {}
      (writingRun.header gaugeDocument.toUTF8.toList) = .ok file :=
    ⟨_, Manifest.generate_eq_ok_iff.2 ⟨rfl, fun _ _ => rfl, rfl⟩⟩
  obtain ⟨g, hg, rfl⟩ := exists_generatedOn (v := writingRun) rfl (read_manifestDisk _)
    read_gaugeDocument hfile
  have hrequest : IsReadableRequest {} (gaugeManifest.resolve [] {}).types := by
    refine ⟨fun e he => ?_, fun e he name hname => nomatch hname⟩
    obtain rfl := List.mem_singleton.1 he
    exact ⟨by decide, by decide, by decide⟩
  have hverified := Manifest.verified_generate hfile hrequest (isOneLine_header (by decide) _)
  have hreports : g.file.types.all (·.ok) ∧ 0 < g.file.generatedCount := by
    rw [GeneratedFile.generatedCount, Manifest.types_generate hfile]
    decide +kernel
  refine ⟨g, hg, (Manifest.ok_generate_iff hfile).2 ⟨hverified, fun name _ => ⟨?_, ?_⟩⟩, hreports.2⟩
  · rintro ⟨hfailed, -⟩
    exact nomatch List.all_eq_true.1 hreports.1 _ hfailed
  · rw [Manifest.isUnknown_iff]
    exact List.not_mem_nil

/-- The run on the manifest with one type, a check after it, and a check of another text. -/
theorem check_agrees_gauge : ∃ g r d',
    generatedOn writingRun (manifestDisk gaugeDocument) = .ok g
      ∧ runOn writingRun (manifestDisk gaugeDocument) = (r, d')
      ∧ (∃ r', runOn writingRun.checking d' = (r', d') ∧ r'.error = none
        ∧ r'.exitCode = r.exitCode)
      ∧ ∀ content, content ≠ g.file.source.toUTF8.toList →
        ∃ d'', d'.write "out.rs" content = .ok d''
          ∧ ∃ r'', runOn writingRun.checking d'' = (r'', d'') ∧ r''.exitCode = 2 := by
  obtain ⟨g, hg, hok, hcount⟩ := exists_generatedOn_gauge
  obtain ⟨d', hcurrent, hrun⟩ := runOn_writingRun hg hcount
  exact ⟨g, _, d', hg, hrun, (check_agrees ofArguments_writingRun rfl rfl hrun
    (.inl (exitCodeOf_eq_zero_iff.2 hok)) hg hcount (not_sameFile_writingRun hcurrent)).2.2⟩

/-! ## Success -/

/-- Warnings are logged at every level. -/
theorem rank_logLevel_le (v : Invocation) : v.logLevel.rank ≤ LogLevel.warn.rank := by
  unfold Invocation.logLevel
  split
  · decide
  · split <;> decide

/-- The warning that the output is left as it is can be seen at every level. -/
theorem untouched_mem_visibleLines (v : Invocation) {lines : List LogLine}
    (h : .untouched path ∈ lines) : .untouched path ∈ visibleLines v.logLevel lines :=
  List.mem_filter.2 ⟨h, decide_eq_true (rank_logLevel_le v)⟩

/-- After a run that ended with 0, the output holds what was generated for the manifest, and a check
with the same arguments ends with 0, provided that some name was asked for. If none was, all files
are as they were, which is told in the log. -/
theorem success_upToDate (harguments : Invocation.ofArguments arguments = .ok v)
    (houtput : v.output = some path) (hcheck : v.check = false) (hrun : runOn v d = (r, d'))
    (hexit : r.exitCode = 0) (hapart : ¬ d'.SameFile v.manifest path) :
    ∃ bytes m file, d.read v.manifest = .ok bytes ∧ Manifest.read bytes = .ok m
      ∧ m.generate v.types v.policy v.options (v.header bytes) = .ok file
      ∧ (m.selectedNames v.types ≠ [] → d'.read path = .ok file.source.toUTF8.toList
        ∧ Invocation.ofArguments ("--check" :: arguments) = .ok v.checking
        ∧ ∃ r', runOn v.checking d' = (r', d') ∧ r'.exitCode = 0)
      ∧ (m.selectedNames v.types = [] → d' = d ∧ .untouched path ∈ r.log) := by
  have hexit' : r.exitCode ≠ 2 := by
    omega
  obtain ⟨g, delivery, hg, hdeliver, rfl⟩ := exists_of_runOn hrun hexit'
  obtain ⟨-, bytes, hread, hfor⟩ := generatedOn_eq_ok_iff.1 hg
  obtain ⟨m, hm, hfile⟩ := exists_generateFor_iff.1 ⟨g, hfor, rfl⟩
  have hok : g.file.ok := exitCodeOf_eq_zero_iff.1 hexit
  refine ⟨bytes, m, g.file, hread, hm, hfile, fun hne => ?_, fun hnil => ?_⟩
  · have hcount := Nat.ne_of_gt (Manifest.generatedCount_pos hfile hok hne)
    obtain ⟨-, hread', hmanifest⟩ := read_of_runOn houtput hcheck hrun hexit' hg hcount hapart
    have hg' : generatedOn v d' = .ok g := by
      rw [generatedOn_congr hmanifest, hg]
    exact ⟨hread', ofArguments_check harguments hcheck, _, runOn_check_of_read houtput hg' hread',
      exitCodeOf_eq_zero_iff.2 hok⟩
  · rw [deliverOn_untouched houtput hcheck (Manifest.generatedCount_eq_zero hfile hnil)] at hdeliver
    obtain ⟨hdelivery, rfl⟩ := Prod.mk.inj hdeliver
    refine ⟨rfl, untouched_mem_visibleLines v ?_⟩
    rw [← Except.ok.inj hdelivery]
    simp

/-- The run on the manifest with one type ends with 0, and so does a check after it. -/
theorem success_upToDate_gauge : ∃ g r d',
    generatedOn writingRun (manifestDisk gaugeDocument) = .ok g
      ∧ runOn writingRun (manifestDisk gaugeDocument) = (r, d') ∧ r.exitCode = 0
      ∧ d'.read "out.rs" = .ok g.file.source.toUTF8.toList
      ∧ ∃ r', runOn writingRun.checking d' = (r', d') ∧ r'.exitCode = 0 := by
  obtain ⟨g, hg, hok, hcount⟩ := exists_generatedOn_gauge
  obtain ⟨d', hcurrent, hrun⟩ := runOn_writingRun hg hcount
  have hexit : (Result.success writingRun g {}).exitCode = 0 := exitCodeOf_eq_zero_iff.2 hok
  obtain ⟨bytes, m, file, hread, hm, hfile, hselected, -⟩ := success_upToDate
    ofArguments_writingRun rfl rfl hrun hexit (not_sameFile_writingRun hcurrent)
  obtain rfl := Except.ok.inj ((read_manifestDisk gaugeDocument).symm.trans hread)
  obtain rfl := Except.ok.inj (read_gaugeDocument.symm.trans hm)
  obtain ⟨g', hg', rfl⟩ := exists_generatedOn (v := writingRun) rfl hread read_gaugeDocument hfile
  obtain rfl := Except.ok.inj (hg'.symm.trans hg)
  obtain ⟨houtput, -, hcheck⟩ := hselected (by decide)
  exact ⟨g', _, d', hg, hrun, hexit, houtput, hcheck⟩

/-- A document without types. -/
def emptyDocument : String :=
  "\x7b\"schema_version\":\"stringer.manifest@0.1.0\",\"types\":[]\x7d"

/-- A run that finds no types ends with 0 and leaves no output behind, so that a check ends with 2. -/
theorem success_without_output :
    Invocation.ofArguments ["--manifest", "m.json", "--output", "out.rs"] = .ok writingRun
      ∧ (∃ r, runOn writingRun (manifestDisk emptyDocument) = (r, manifestDisk emptyDocument)
        ∧ r.exitCode = 0)
      ∧ ¬ (manifestDisk emptyDocument).SameFile "m.json" "out.rs"
      ∧ (manifestDisk emptyDocument).read "out.rs" = .error .notFound
      ∧ ∃ r', runOn writingRun.checking (manifestDisk emptyDocument)
        = (r', manifestDisk emptyDocument) ∧ r'.exitCode = 2 := by
  have hmanifest : Manifest.read emptyDocument.toUTF8.toList = .ok ⟨manifestSchemaVersion, []⟩ := by
    decide +kernel
  have hread : (manifestDisk emptyDocument).read "out.rs" = .error .notFound := rfl
  obtain ⟨file, hfile⟩ : ∃ file, Manifest.generate ⟨manifestSchemaVersion, []⟩ [] {} {}
      (writingRun.header emptyDocument.toUTF8.toList) = .ok file :=
    ⟨_, Manifest.generate_eq_ok_iff.2 ⟨rfl, fun _ _ => rfl, rfl⟩⟩
  obtain ⟨g, hg, rfl⟩ := exists_generatedOn (v := writingRun) rfl (read_manifestDisk _) hmanifest
    hfile
  have hrequest : IsReadableRequest {} [] := ⟨nofun, nofun⟩
  have hverified := Manifest.verified_generate hfile hrequest (isOneLine_header (by decide) _)
  have hok : g.file.ok := (Manifest.ok_generate_iff hfile).2 ⟨hverified, nofun⟩
  have hcount := Manifest.generatedCount_eq_zero hfile rfl
  have hrun := runOn_of_deliver hg (deliverOn_untouched (v := writingRun) rfl rfl hcount)
  have hdiffers : (manifestDisk emptyDocument).read "out.rs"
      ≠ .ok g.file.source.toUTF8.toList := by
    rw [hread]
    nofun
  obtain ⟨log, e, hcheck⟩ := runOn_check_of_differs rfl hg hdiffers
  exact ⟨ofArguments_writingRun, ⟨_, hrun, exitCodeOf_eq_zero_iff.2 hok⟩,
    not_sameFile_writingRun rfl, hread, _, hcheck, rfl⟩

end EnumNames.Command
