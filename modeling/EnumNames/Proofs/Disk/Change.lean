import EnumNames.Proofs.Disk.Step
import EnumNames.Proofs.Except

/-!
# Changes of a disk

Whatever a run does to a disk, directories stay directories, so that a path which leads somewhere
keeps leading there. A file that is written is read back; other files stay as they are.

* `Disk.KeepsDirectories`: paths lead to the same places on both disks.
* `Disk.AddsDirectories`: the disks differ in new directories alone.
* `read_write`, `read_of_write`: what a disk holds after a file is written.
* `addsOnly_makeDirectories`: making directories does nothing else.
-/

namespace EnumNames

variable {d d' : Disk} {l l' : Location} {path : String} {content : List UInt8}

namespace Disk

/-! ## Entries -/

@[simp] theorem entry?_root (d : Disk) : d.entry? [] = some .directory := rfl

theorem lookup_filter_ne (entries : List (Location × DiskEntry)) (h : l' ≠ l) :
    (entries.filter (·.1 ≠ l)).lookup l' = entries.lookup l' := by
  induction entries with
  | nil => rfl
  | cons entry entries ih =>
    by_cases hentry : entry.1 = l
    · have hne : (l' == entry.1) = false := by
        rw [hentry]
        exact beq_eq_false_iff_ne.2 h
      rw [List.filter_cons_of_neg (by simpa using hentry), ih, List.lookup_cons, hne]
    · rw [List.filter_cons_of_pos (by simpa using hentry), List.lookup_cons, List.lookup_cons, ih]

/-- What is put at a location other than the root is found there. -/
theorem entry?_put_self (d : Disk) (h : l ≠ []) (e : DiskEntry) :
    entry? (d.put l e) l = some e := by
  unfold entry?
  rw [if_neg (by simpa using h), put, List.lookup_cons_self]

/-- What is put at a location is found nowhere else. -/
theorem entry?_put_of_ne (d : Disk) (h : l' ≠ l) (e : DiskEntry) :
    entry? (d.put l e) l' = d.entry? l' := by
  have hne : (l' == l) = false := beq_eq_false_iff_ne.2 h
  unfold entry?
  rw [put, List.lookup_cons, hne]
  simp only [lookup_filter_ne d.entries h]

@[simp] theorem current_put (d : Disk) (l : Location) (e : DiskEntry) :
    (d.put l e).current = d.current := rfl

/-- The innermost name of a location is not too long. -/
def IsPossible (l : Location) : Prop :=
  l.head?.any (maxNameSize < ·.utf8ByteSize) = false

/-- A location is looked up if its innermost name is not too long. -/
theorem lookUp_eq_ok_iff {entry : Option DiskEntry} :
    d.lookUp l = .ok entry ↔ IsPossible l ∧ d.entry? l = entry := by
  unfold lookUp IsPossible
  split
  · next h => simp [h]
  · next h => simp [h]

/-! ## Paths -/

/-- The directories of a disk are directories of another one, and paths begin at the same place. -/
structure KeepsDirectories (d d' : Disk) : Prop where
  current : d'.current = d.current
  directory : ∀ l, d.entry? l = some .directory → d'.entry? l = some .directory

/-- A disk with more directories than another one, and otherwise the same. -/
structure AddsDirectories (d d' : Disk) : Prop where
  current : d'.current = d.current
  entry : ∀ l, d'.entry? l = d.entry? l ∨ d.entry? l = none ∧ d'.entry? l = some .directory

theorem AddsDirectories.refl (d : Disk) : d.AddsDirectories d :=
  ⟨rfl, fun _ => .inl rfl⟩

/-- Directories that are added in two steps are added. -/
theorem AddsDirectories.trans {d'' : Disk} (h : d.AddsDirectories d')
    (h' : d'.AddsDirectories d'') : d.AddsDirectories d'' := by
  refine ⟨h'.current.trans h.current, fun l => ?_⟩
  rcases h'.entry l with heq | ⟨hnone, hnew⟩
  · rw [heq]
    exact h.entry l
  · rcases h.entry l with heq | ⟨hnone', -⟩
    · exact .inr ⟨heq.symm.trans hnone, hnew⟩
    · exact .inr ⟨hnone', hnew⟩

/-- What stands on a disk still stands there when directories are added. -/
theorem AddsDirectories.entry?_eq (h : d.AddsDirectories d') {entry : DiskEntry}
    (hentry : d.entry? l = some entry) : d'.entry? l = some entry := by
  rcases h.entry l with heq | ⟨hnone, -⟩
  · rw [heq, hentry]
  · exact absurd (hentry.symm.trans hnone) (by simp)

/-- Where directories are only added, those that were there stay. -/
theorem AddsDirectories.keepsDirectories (h : d.AddsDirectories d') : d.KeepsDirectories d' :=
  ⟨h.current, fun _ hentry => h.entry?_eq hentry⟩

/-- A directory or a file comes to stand where no directory stood. -/
theorem keepsDirectories_put (h : d.entry? l ≠ some .directory) (e : DiskEntry) :
    d.KeepsDirectories (d.put l e) := by
  refine ⟨rfl, fun l' hl' => ?_⟩
  have hne : l' ≠ l := by
    rintro rfl
    exact h hl'
  rw [entry?_put_of_ne d hne, hl']

/-- A directory may be put where nothing is. -/
theorem addsDirectories_put (h : d.entry? l = none) : d.AddsDirectories (d.put l .directory) := by
  refine ⟨rfl, fun l' => ?_⟩
  by_cases hl : l' = l
  · subst hl
    have hne : l' ≠ [] := by
      rintro rfl
      exact absurd h (by simp)
    exact .inr ⟨h, entry?_put_self d hne _⟩
  · exact .inl (entry?_put_of_ne d hl _)

/-- A directory that is kept is found again. -/
theorem KeepsDirectories.lookUp_eq (h : d.KeepsDirectories d')
    (hl : d.lookUp l = .ok (some .directory)) : d'.lookUp l = .ok (some .directory) := by
  obtain ⟨hpossible, hentry⟩ := lookUp_eq_ok_iff.1 hl
  exact lookUp_eq_ok_iff.2 ⟨hpossible, h.directory l hentry⟩

/-- A way through directories stays open. -/
theorem KeepsDirectories.walk_eq (h : d.KeepsDirectories d') {names : List String}
    (hwalk : d.walk l names = .ok l') : d'.walk l names = .ok l' := by
  fun_induction walk d l names with
  | case1 l => exact hwalk
  | case2 l names ih => exact ih hwalk
  | case3 l names ih => exact ih hwalk
  | case4 l name names hdot hdots hlookUp ih =>
    rw [walk.eq_4 _ _ _ _ hdot hdots, h.lookUp_eq hlookUp]
    exact ih hwalk
  | case5 | case6 | case7 => exact absurd hwalk (by simp)

/-- A path that leads somewhere keeps leading there. -/
theorem KeepsDirectories.locate_eq (h : d.KeepsDirectories d') {target : Target}
    (hlocate : d.locate path = .ok target) : d'.locate path = .ok target := by
  unfold locate at hlocate ⊢
  rw [h.current]
  by_cases hsize : maxPathSize < path.utf8ByteSize
  · rw [if_pos hsize] at hlocate
    exact nomatch hlocate
  rw [if_neg hsize] at hlocate ⊢
  dsimp only at hlocate ⊢
  cases hlast : (Path.ofText path).names.getLast? with
  | none =>
    rw [hlast] at hlocate
    exact hlocate
  | some last =>
    rw [hlast] at hlocate
    dsimp only at hlocate ⊢
    obtain ⟨l, hwalk, hlocate⟩ := bind_eq_ok_iff.1 hlocate
    exact bind_eq_ok_iff.2 ⟨l, h.walk_eq hwalk, hlocate⟩

/-! ## Files -/

/-- Two paths lead to the same place. -/
def SameFile (d : Disk) (path path' : String) : Prop :=
  ∃ l, (d.locate path).map Target.location = .ok l ∧ (d.locate path').map Target.location = .ok l

/-- Paths to one location, both without a slash at the end, lead to one file. -/
theorem sameFile_of_locate {path' : String} (h : d.locate path = .ok ⟨l, false⟩)
    (h' : d.locate path' = .ok ⟨l, false⟩) : d.SameFile path path' :=
  ⟨l, by rw [h]; rfl, by rw [h']; rfl⟩

/-- Paths that lead to the same place keep doing so. -/
theorem KeepsDirectories.sameFile (h : d.KeepsDirectories d') {path' : String}
    (hsame : d.SameFile path path') : d'.SameFile path path' := by
  obtain ⟨l, hl, hl'⟩ := hsame
  obtain ⟨target, htarget, rfl⟩ := map_eq_ok_iff.1 hl
  obtain ⟨target', htarget', heq⟩ := map_eq_ok_iff.1 hl'
  refine ⟨target.location, ?_, ?_⟩
  · rw [h.locate_eq htarget]
    rfl
  · rw [h.locate_eq htarget', heq]
    rfl

/-- A text is read from a path that leads to a file without a slash at its end. -/
theorem read_eq_ok_iff : d.read path = .ok content
    ↔ ∃ l, d.locate path = .ok ⟨l, false⟩ ∧ d.lookUp l = .ok (some (.file content)) := by
  rw [read, bind_eq_ok_iff]
  constructor
  · rintro ⟨⟨l, mustBeDirectory⟩, hlocate, h⟩
    obtain ⟨entry, hlookUp, h⟩ := bind_eq_ok_iff.1 h
    obtain _ | _ | content' := entry
    · exact nomatch h
    · exact nomatch h
    · cases mustBeDirectory with
      | true => exact nomatch h
      | false =>
        obtain rfl := Except.ok.inj h
        exact ⟨l, hlocate, hlookUp⟩
  · rintro ⟨l, hlocate, hlookUp⟩
    exact ⟨_, hlocate, bind_eq_ok_iff.2 ⟨_, hlookUp, rfl⟩⟩

/-- Writing succeeds where the path ends in the name of a file, or of nothing as yet. -/
theorem write_eq_ok_iff : d.write path content = .ok d'
    ↔ ∃ l entry, d.locate path = .ok ⟨l, false⟩ ∧ d.lookUp l = .ok entry
      ∧ entry ≠ some .directory ∧ d' = d.put l (.file content) := by
  rw [write, bind_eq_ok_iff]
  constructor
  · rintro ⟨⟨l, mustBeDirectory⟩, hlocate, h⟩
    cases mustBeDirectory with
    | true => exact nomatch h
    | false =>
      obtain ⟨entry, hlookUp, h⟩ := bind_eq_ok_iff.1 h
      obtain _ | _ | content' := entry
      · exact ⟨l, _, hlocate, hlookUp, nofun, (Except.ok.inj h).symm⟩
      · exact nomatch h
      · exact ⟨l, _, hlocate, hlookUp, nofun, (Except.ok.inj h).symm⟩
  · rintro ⟨l, entry, hlocate, hlookUp, hentry, rfl⟩
    refine ⟨_, hlocate, bind_eq_ok_iff.2 ⟨_, hlookUp, ?_⟩⟩
    obtain _ | _ | content' := entry
    · rfl
    · exact absurd rfl hentry
    · rfl

/-- A write removes no directory. -/
theorem keepsDirectories_of_write (h : d.write path content = .ok d') : d.KeepsDirectories d' := by
  obtain ⟨l, entry, -, hlookUp, hentry, rfl⟩ := write_eq_ok_iff.1 h
  rw [← (lookUp_eq_ok_iff.1 hlookUp).2] at hentry
  exact keepsDirectories_put hentry _

/-- What was written is read back. -/
theorem read_write (h : d.write path content = .ok d') : d'.read path = .ok content := by
  have hkeeps := keepsDirectories_of_write h
  obtain ⟨l, entry, hpath, hlookUp, hentry, rfl⟩ := write_eq_ok_iff.1 h
  obtain ⟨hpossible, rfl⟩ := lookUp_eq_ok_iff.1 hlookUp
  have hne : l ≠ [] := by
    rintro rfl
    exact hentry rfl
  exact read_eq_ok_iff.2 ⟨l, hkeeps.locate_eq hpath,
    lookUp_eq_ok_iff.2 ⟨hpossible, entry?_put_self d hne _⟩⟩

/-- Files that the written path does not lead to are read as before. -/
theorem read_of_write {path' : String} {content' : List UInt8}
    (h : d.write path content = .ok d') (hread : d.read path' = .ok content')
    (hapart : ¬ d.SameFile path' path) : d'.read path' = .ok content' := by
  have hkeeps := keepsDirectories_of_write h
  obtain ⟨l, entry, hpath, -, -, rfl⟩ := write_eq_ok_iff.1 h
  obtain ⟨l', hpath', hlookUp⟩ := read_eq_ok_iff.1 hread
  have hne : l' ≠ l := by
    rintro rfl
    exact hapart (sameFile_of_locate hpath' hpath)
  obtain ⟨hpossible, hentry⟩ := lookUp_eq_ok_iff.1 hlookUp
  rw [← entry?_put_of_ne d hne (.file content)] at hentry
  exact read_eq_ok_iff.2 ⟨l', hkeeps.locate_eq hpath', lookUp_eq_ok_iff.2 ⟨hpossible, hentry⟩⟩

/-- A file that can be read can be replaced. -/
theorem exists_write (h : d.read path = .ok content) (content' : List UInt8) :
    ∃ d', d.write path content' = .ok d' := by
  obtain ⟨l, hlocate, hlookUp⟩ := read_eq_ok_iff.1 h
  exact ⟨_, write_eq_ok_iff.2 ⟨l, _, hlocate, hlookUp, nofun, rfl⟩⟩

/-- Added directories do not stand in the place of a file. -/
theorem AddsDirectories.read_eq (h : d.AddsDirectories d') (hread : d.read path = .ok content) :
    d'.read path = .ok content := by
  obtain ⟨l, hlocate, hlookUp⟩ := read_eq_ok_iff.1 hread
  obtain ⟨hpossible, hentry⟩ := lookUp_eq_ok_iff.1 hlookUp
  exact read_eq_ok_iff.2 ⟨l, h.keepsDirectories.locate_eq hlocate,
    lookUp_eq_ok_iff.2 ⟨hpossible, h.entry?_eq hentry⟩⟩

/-! ## Directories -/

/-- Making a directory adds one at most. -/
theorem addsDirectories_makeDirectory (h : d.makeDirectory path = .ok d') :
    d.AddsDirectories d' := by
  obtain ⟨target, -, h⟩ := bind_eq_ok_iff.1 h
  obtain ⟨entry, hlookUp, h⟩ := bind_eq_ok_iff.1 h
  cases entry with
  | some entry => exact nomatch h
  | none =>
    obtain rfl := Except.ok.inj h
    exact addsDirectories_put (lookUp_eq_ok_iff.1 hlookUp).2

end Disk

open FileStore

/-! ## Steps -/

theorem read_apply (path : String) (d : Disk) :
    (FileStore.read path : StateM Disk (Except FileError (List UInt8))) d = (d.read path, d) := rfl

theorem write_apply (path : String) (content : List UInt8) (d : Disk) :
    (FileStore.write path content : StateM Disk (Except FileError Unit)) d
      = changeDisk (·.write path content) d := rfl

/-- Whatever the disk is, a step only adds directories to it. -/
def AddsOnly {α : Type} (step : StateM Disk α) : Prop :=
  ∀ d : Disk, d.AddsDirectories (step d).2

instance : IsPreorder Disk Disk.AddsDirectories where
  refl := Disk.AddsDirectories.refl
  trans _ _ _ := Disk.AddsDirectories.trans

/-- As a step, making a directory adds one at most. -/
theorem addsOnly_makeDirectory (path : String) :
    AddsOnly (FileStore.makeDirectory path : StateM Disk (Except FileError Unit)) := by
  intro d
  show d.AddsDirectories (changeDisk (·.makeDirectory path) d).2
  unfold changeDisk
  split
  · next h => exact Disk.addsDirectories_makeDirectory h
  · exact .refl d

/-- Directories are all that comes into being, also if some of them cannot be made. -/
theorem addsOnly_makeDirectories (path : String) :
    AddsOnly (makeDirectories path : StateM Disk (Except FileError Unit)) :=
  changes_makeDirectories (fun _ d => .refl d) addsOnly_makeDirectory path

end EnumNames
