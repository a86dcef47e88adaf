import EnumNames.Disk.Basic

/-!
# Stores of files

What a run needs of the files around it, whether they are those of the machine or a `Disk`. An
operation answers with an error instead of failing.

* `FileStore.makeDirectories` makes a directory together with those that enclose it.
-/

namespace EnumNames

/-- Files that can be read and written in `m`. -/
class FileStore (m : Type → Type) where
  read : String → m (Except FileError (List UInt8))
  write : String → List UInt8 → m (Except FileError Unit)
  makeDirectory : String → m (Except FileError Unit)
  isDirectory : String → m Bool

/-- Changes the disk if an operation succeeds. -/
def changeDisk (f : Disk → Except FileError Disk) : StateM Disk (Except FileError Unit) := fun d =>
  match f d with
  | .ok d' => (.ok (), d')
  | .error e => (.error e, d)

instance : FileStore (StateM Disk) where
  read path := fun d => (d.read path, d)
  write path content := changeDisk fun d => d.write path content
  makeDirectory path := changeDisk fun d => d.makeDirectory path
  isDirectory path := fun d => (d.isDirectory path, d)

namespace FileStore

variable {m : Type → Type} [Monad m] [FileStore m]

/-- An error does not matter if the directory is there. -/
def unlessThere (path : String) (e : FileError) : m (Except FileError Unit) := do
  if ← isDirectory path then return .ok () else return .error e

/-- Makes the first of some directories, of which each stands in the next; those that are missing
are made first. -/
def makeLineage : List String → m (Except FileError Unit)
  | [] => return .ok ()
  | path :: outer => do
    match ← makeDirectory path with
    | .ok () => return .ok ()
    | .error .notFound =>
      match ← makeLineage outer with
      | .error e => return .error e
      | .ok () =>
        match ← makeDirectory path with
        | .ok () => return .ok ()
        | .error e => unlessThere path e
    | .error e => unlessThere path e

/-- Makes a directory together with those that enclose it. -/
def makeDirectories (path : String) : m (Except FileError Unit) :=
  makeLineage (Disk.lineage path)

end FileStore

end EnumNames
