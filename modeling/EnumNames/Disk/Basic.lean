import EnumNames.Disk.Path

/-!
# Disks

The files and directories that a run can see, by their locations. A location is a list of names from
the innermost to the outermost; the root is the empty one and is always a directory.

* `Disk.locate` follows a path. All names but the last have to be directories that exist; names and
  paths have a greatest size.
* `Disk.read`, `Disk.write` and `Disk.makeDirectory` are the operations that a run needs, with the
  errors that they meet.
-/

namespace EnumNames

/-- Why an operation on files fails. -/
inductive FileError
  | notFound
  | alreadyExists
  | notDirectory
  | isDirectory
  | nameTooLong
  /-- A file that has to be text is not UTF-8. -/
  | notText
  /-- A cause that is not told apart. -/
  | other (message : String)
  deriving DecidableEq, Repr

/-- The error in words. -/
def FileError.message : FileError → String
  | notFound => "No such file or directory (os error 2)"
  | alreadyExists => "File exists (os error 17)"
  | notDirectory => "Not a directory (os error 20)"
  | isDirectory => "Is a directory (os error 21)"
  | nameTooLong => "File name too long (os error 36)"
  | notText => "stream did not contain valid UTF-8"
  | other message => message

/-- The place of a file or directory: its name, and the names of the directories around it. -/
abbrev Location := List String

/-- What stands at a location. -/
inductive DiskEntry
  | directory
  | file (content : List UInt8)
  deriving DecidableEq, Repr

/-- The files and directories below the root. -/
structure Disk where
  entries : List (Location × DiskEntry)
  /-- The directory that relative paths begin at. -/
  current : Location
  deriving DecidableEq, Repr

namespace Disk

/-- What stands at a location, if anything. -/
def entry? (d : Disk) (l : Location) : Option DiskEntry :=
  if l.isEmpty then some .directory else d.entries.lookup l

/-- Puts an entry at a location, in place of the one that stands there. -/
def put (d : Disk) (l : Location) (e : DiskEntry) : Disk :=
  { d with entries := (l, e) :: d.entries.filter (·.1 ≠ l) }

/-- The most bytes that a name may have. -/
def maxNameSize : Nat :=
  255

/-- The most bytes that a path may have. -/
def maxPathSize : Nat :=
  4095

/-- Looks for what stands at a location; its innermost name has to be a possible one. -/
def lookUp (d : Disk) (l : Location) : Except FileError (Option DiskEntry) :=
  if l.head?.any (maxNameSize < ·.utf8ByteSize) then .error .nameTooLong else .ok <| d.entry? l

/-- Goes from a directory through further ones. -/
def walk (d : Disk) (l : Location) : List String → Except FileError Location
  | [] => .ok l
  | "." :: names => d.walk l names
  | ".." :: names => d.walk l.tail names
  | name :: names =>
    match d.lookUp (name :: l) with
    | .ok (some .directory) => d.walk (name :: l) names
    | .ok (some (.file _)) => .error .notDirectory
    | .ok none => .error .notFound
    | .error e => .error e

/-- Where a path leads to. -/
structure Target where
  location : Location
  /-- Whether the path can only mean a directory. -/
  mustBeDirectory : Bool
  deriving DecidableEq, Repr

/-- Follows a path; its last name need not exist. -/
def locate (d : Disk) (text : String) : Except FileError Target := do
  if maxPathSize < text.utf8ByteSize then .error .nameTooLong
  let path := Path.ofText text
  let start := if path.isAbsolute then [] else d.current
  match path.names.getLast? with
  | none => if path.isAbsolute then return ⟨start, true⟩ else .error .notFound
  | some last =>
    let l ← d.walk start path.names.dropLast
    match last with
    | "." => return ⟨l, true⟩
    | ".." => return ⟨l.tail, true⟩
    | name => return ⟨name :: l, path.endsInSlash⟩

/-- The content of a file. -/
def read (d : Disk) (path : String) : Except FileError (List UInt8) := do
  let target ← d.locate path
  match ← d.lookUp target.location with
  | none => .error .notFound
  | some .directory => .error .isDirectory
  | some (.file content) => if target.mustBeDirectory then .error .notDirectory else .ok content

/-- The disk after a file is written; a file that exists is replaced. -/
def write (d : Disk) (path : String) (content : List UInt8) : Except FileError Disk := do
  let target ← d.locate path
  if target.mustBeDirectory then .error .isDirectory
  else
    match ← d.lookUp target.location with
    | some .directory => .error .isDirectory
    | _ => .ok (d.put target.location (.file content))

/-- The disk after a directory is made. -/
def makeDirectory (d : Disk) (path : String) : Except FileError Disk := do
  let target ← d.locate path
  match ← d.lookUp target.location with
  | some _ => .error .alreadyExists
  | none => .ok (d.put target.location .directory)

/-- Whether a path leads to a directory. -/
def isDirectory (d : Disk) (path : String) : Bool :=
  match (d.locate path).bind fun target => d.lookUp target.location with
  | .ok (some .directory) => true
  | _ => false

end Disk

end EnumNames
