import EnumNames.Proofs.Disk.Change

/-!
# Files of a store

What a store holds is seen file by file: at each place there is a file or none, and a path leads to
a place or to none. Directories are not seen, and neither is what an operation costs.

* `FileView`: the files of a state of a store, and where paths lead.
* `LawfulStore`: only a write that succeeds changes a file, and only the one that its path leads to.
* `sameFiles_makeDirectories`: making directories changes no file.
-/

namespace EnumNames

open FileStore

/-- The files of the states of a store. -/
class FileView (σ : Type) (Place : outParam Type) where
  /-- The content of the file at a place, if there is one. -/
  file? : σ → Place → Option (List UInt8)
  /-- The place of the file that a path means. -/
  place? : σ → String → Option Place

open FileView

variable {σ Place : Type} [FileView σ Place]

/-- No file has come into being, has changed or is gone. -/
def SameFiles (s s' : σ) : Prop :=
  ∀ p, file? s' p = file? s p

/-- A path leads to a file with a given content, and all other files are as before. -/
structure WritesFile (s s' : σ) (path : String) (content : List UInt8) (p : Place) : Prop where
  place : place? s' path = some p
  content : file? s' p = some content
  other : ∀ p', p' ≠ p → file? s' p' = file? s p'

/-- Steps that change no file may stand in front of a write. -/
theorem WritesFile.of_sameFiles {s s₁ s' : σ} {path : String} {content : List UInt8} {p : Place}
    (h : SameFiles s s₁) (hwrites : WritesFile s₁ s' path content p) :
    WritesFile s s' path content p :=
  ⟨hwrites.place, hwrites.content, fun p' hp' => (hwrites.other p' hp').trans (h p')⟩

instance : IsPreorder σ SameFiles where
  refl _ _ := rfl
  trans _ _ _ h h' p := (h' p).trans (h p)

/-- What can be relied on about files that are read and written. Which operations fail is left open,
but one that fails leaves the files as they were. -/
class LawfulStore (σ : Type) {Place : Type} [FileView σ Place] [FileStore (StateM σ)] : Prop where
  sameFiles_read path : Changes SameFiles (read path : StateM σ (Except FileError (List UInt8)))
  sameFiles_isDirectory path : Changes SameFiles (isDirectory path : StateM σ Bool)
  sameFiles_makeDirectory path :
    Changes SameFiles (makeDirectory path : StateM σ (Except FileError Unit))
  sameFiles_write path content (s s' : σ) (e : FileError) :
    (write path content : StateM σ (Except FileError Unit)) s = (.error e, s') → SameFiles s s'
  writesFile_write path content (s s' : σ) :
    (write path content : StateM σ (Except FileError Unit)) s = (.ok (), s') →
      ∃ p, WritesFile s s' path content p

/-- Making directories changes no file. -/
theorem sameFiles_makeDirectories [FileStore (StateM σ)] [LawfulStore σ] (path : String) :
    Changes SameFiles (makeDirectories path : StateM σ (Except FileError Unit)) :=
  changes_makeDirectories LawfulStore.sameFiles_isDirectory LawfulStore.sameFiles_makeDirectory path

/-! ## Disks -/

namespace Disk

variable {d d' : Disk} {l : Location} {path : String} {content : List UInt8}

instance : FileView Disk Location where
  file? d l :=
    match d.entry? l with
    | some (.file content) => some content
    | _ => none
  place? d path :=
    match d.locate path with
    | .ok ⟨l, false⟩ => some l
    | _ => none

theorem file?_congr (h : d'.entry? l = d.entry? l) : file? d' l = file? d l := by
  simp only [file?, h]

/-- Where directories are only added, all files are as before. -/
theorem AddsDirectories.sameFiles (h : d.AddsDirectories d') : SameFiles d d' := by
  intro l
  rcases h.entry l with heq | ⟨hnone, hnew⟩
  · exact file?_congr heq
  · simp only [file?, hnone, hnew]

/-- A write on a disk changes the file that its path leads to, and no other. -/
theorem writesFile_of_write (h : d.write path content = .ok d') :
    ∃ l, WritesFile d d' path content l := by
  have hkeeps := keepsDirectories_of_write h
  obtain ⟨l, entry, hpath, hlookUp, hentry, rfl⟩ := write_eq_ok_iff.1 h
  obtain ⟨-, rfl⟩ := lookUp_eq_ok_iff.1 hlookUp
  -- a directory stands at the root, and no file is written over it
  have hne : l ≠ [] := by
    rintro rfl
    exact hentry rfl
  refine ⟨l, ?_, ?_, fun l' hl' => file?_congr (entry?_put_of_ne d hl' _)⟩
  · simp only [place?, hkeeps.locate_eq hpath]
  · simp only [file?, entry?_put_self d hne]

end Disk

instance : LawfulStore Disk where
  sameFiles_read _ d := refl_of SameFiles d
  sameFiles_isDirectory _ d := refl_of SameFiles d
  sameFiles_makeDirectory path d := (addsOnly_makeDirectory path d).sameFiles
  sameFiles_write path content d d' e h := by
    rw [write_apply, changeDisk] at h
    split at h
    · exact nomatch (Prod.mk.inj h).1
    · rw [← (Prod.mk.inj h).2]
      exact refl_of SameFiles d
  writesFile_write path content d d' h := by
    rw [write_apply, changeDisk] at h
    split at h
    · next hwrite =>
      rw [← (Prod.mk.inj h).2]
      exact Disk.writesFile_of_write hwrite
    · exact nomatch (Prod.mk.inj h).1

end EnumNames
