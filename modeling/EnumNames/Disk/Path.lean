import EnumNames.Text.Pieces

/-!
# Paths

A path is a text of names with slashes between them. A single dot names the directory that it stands
in, two dots the one above; empty names do not count.

* `Path.ofText` takes a path apart for a look-up.
* `parent?` gives the text of the path of the enclosing directory, as it is written.
-/

namespace EnumNames.Disk

/-- A path taken apart. -/
structure Path where
  /-- Whether the path begins at the root. -/
  isAbsolute : Bool
  names : List String
  /-- Whether a slash ends the path, so that it can only mean a directory. -/
  endsInSlash : Bool
  deriving DecidableEq, Repr

/-- Takes a path apart. -/
def Path.ofText (text : String) : Path :=
  let cs := text.toList
  { isAbsolute := cs.head? == some '/'
    names := ((Text.pieces '/' cs).filter (!·.isEmpty)).map String.ofList
    endsInSlash := cs.getLast? == some '/' }

/-! ## Enclosing directories -/

/-- Whether a name in the middle of a path does not count. -/
def isIdle (name : List Char) : Bool :=
  name.isEmpty || name == ['.']

/-- What a path begins with, and its other names: a slash, a dot that stands for the current
directory, or nothing. -/
def splitStart : List Char → List Char × List (List Char)
  | '/' :: rest => (['/'], Text.pieces '/' rest)
  | ['.'] => (['.'], [])
  | '.' :: '/' :: rest => (['.'], [] :: Text.pieces '/' rest)
  | cs => ([], Text.pieces '/' cs)

/-- Drops names at the end that do not count. -/
def dropIdleEnd (names : List (List Char)) : List (List Char) :=
  (names.reverse.dropWhile isIdle).reverse

/-- The path of the directory that a path stands in. -/
def parentChars? (cs : List Char) : Option (List Char) :=
  let (start, names) := splitStart cs
  match dropIdleEnd names with
  | [] => if start = ['.'] then some [] else none
  | kept => some (start ++ Text.joinPieces '/' (dropIdleEnd kept.dropLast))

/-- The path of the directory that a path stands in, unless it stands in the current one or is the
root. -/
def parent? (path : String) : Option String :=
  ((parentChars? path.toList).filter (!·.isEmpty)).map String.ofList

/-- At most `fuel` enclosing directories, the innermost first. -/
def enclosing (path : String) : Nat → List String
  | 0 => []
  | fuel + 1 =>
    match parent? path with
    | some outer => outer :: enclosing outer fuel
    | none => []

/-- A directory and all that enclose it, the innermost first. -/
def lineage (path : String) : List String :=
  path :: enclosing path path.length

end EnumNames.Disk
