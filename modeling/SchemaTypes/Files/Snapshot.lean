import SchemaTypes.Files.Host
import SchemaTypes.Files.Path

/-!
# Snapshots

The files around a working directory as a value, with the lines that were printed there. A path
leads from one directory to the next. Outside of the working directory there is at first only a
directory for temporary files and the null device.
-/
namespace SchemaTypes.Files

/-- A place: the names that lead to it from the working directory. Steps to the directory above
stand only at the front, and an empty name at the front stands for the root. -/
abbrev Place := List (List Char)

namespace Place

/-- The step to the directory above. -/
def up : List Char := ['.', '.']

def root : Place := [[]]

def ofNames (names : List String) : Place :=
  names.map String.toList

def temporary : Place := root ++ ofNames ["tmp"]

/-- What is written to the null device is lost. -/
def nullDevice : Place := root ++ ofNames ["dev", "null"]

/-- The working directory and those that it is in. -/
def isAbove (place : Place) : Bool :=
  place.all (· == up)

/-- Below the working directory. -/
def isBelow (place : Place) : Bool :=
  match place with
  | [] => false
  | name :: _ => name ≠ [] && name ≠ up

/-- The directory that a place is in. The root is in itself. -/
def parent (place : Place) : Place :=
  if place.isAbove then place ++ [up]
  else if place = root then root
  else place.dropLast

end Place

/-- The files with their texts, directories that need not have files, and the printed lines. -/
structure Snapshot where
  files : List (Place × String)
  directories : List Place := [Place.root, Place.temporary]
  printed : List String := []
deriving Inhabited

namespace Snapshot

/-- The snapshot of files given by their paths. -/
def ofFiles (files : List (String × String)) : Snapshot :=
  { files := (Place.nullDevice, "") ::
      files.map fun (path, text) => (properComponents path, text) }

/-- The files below the working directory by their paths. -/
def filesBelow (s : Snapshot) : List (String × String) :=
  (s.files.filter (·.1.isBelow)).map fun (place, text) =>
    ("/".intercalate (place.map String.ofList), text)

def file? (s : Snapshot) (place : Place) : Option String :=
  s.files.lookup place

/-- Directories are there for themselves or because something is in them. -/
def isDirectory (s : Snapshot) (place : Place) : Bool :=
  place.isAbove || s.directories.contains place ||
    s.files.any fun f => place.isPrefixOf f.1 && place.length < f.1.length

/-- Names have at most 255 bytes, none of which is zero. -/
def isName (name : List Char) : Bool :=
  (String.ofList name).utf8ByteSize ≤ 255 && !name.contains (Char.ofNat 0)

/-- Follows the components of a path from a directory. Whether there is something at the last one is
not looked at. -/
def follow (s : Snapshot) (place : Place) : List (List Char) → Option Place
  | [] => some place
  | name :: rest =>
    if !s.isDirectory place || !isName name then none
    else if name = [] || name = ['.'] then s.follow place rest
    else if name = Place.up then s.follow place.parent rest
    else s.follow (place ++ [name]) rest

/-- Where a path starts. -/
def start (path : String) : Place :=
  if isAbsolute path then .root else []

/-- Paths have less than 4096 bytes. -/
def isPath (path : String) : Bool :=
  path.utf8ByteSize < 4096

def place? (s : Snapshot) (path : String) : Option Place :=
  if path.isEmpty || !isPath path then none else s.follow (start path) (components path)

def read (s : Snapshot) (path : String) : Option String := do
  s.file? (← s.place? path)

/-- Makes the directories on the way that the components lead from a place. -/
def makeWay (s : Snapshot) (place : Place) : List (List Char) → Option Snapshot
  | [] => some s
  | name :: rest =>
    if !isName name then none
    else if name = [] || name = ['.'] then s.makeWay place rest
    else if name = Place.up then s.makeWay place.parent rest
    else
      let next := place ++ [name]
      if (s.file? next).isSome then none
      else if s.isDirectory next then s.makeWay next rest
      else { s with directories := next :: s.directories }.makeWay next rest

/-- Does a path end with a component for the directory itself? -/
def endsInPlace (path : String) : Bool :=
  ((components path).filter (· ≠ [])).getLast? = some ['.']

/-- Makes a directory with those that it is in. Under a path that ends with a point the directory
itself is not made. -/
def createDirectories (s : Snapshot) (path : String) : Option Snapshot := do
  if !isPath path then none
  else if endsInPlace path then do
    let s ← s.makeWay (start path) (properComponents path).dropLast
    let _ ← s.place? path
    pure s
  else s.makeWay (start path) (components path)

/-- Writes a file in a directory that is there. -/
def write (s : Snapshot) (path text : String) : Option Snapshot := do
  let place ← s.place? path
  if s.isDirectory place then none
  else if place = Place.nullDevice then pure s
  else pure { s with files := s.files.filter (·.1 ≠ place) ++ [(place, text)] }

/-- Keeps the snapshot where there is no new one, and says so. -/
def orSame (new? : Snapshot → Option Snapshot) : StateM Snapshot Bool := do
  match new? (← get) with
  | some new => do
    set new
    pure true
  | none => pure false

end Snapshot

/-- A host that works on a snapshot. -/
def snapshotHost : Host (StateM Snapshot) where
  read path := do pure ((← get).read path)
  createDirectories path := Snapshot.orSame (·.createDirectories path)
  write path text := Snapshot.orSame (·.write path text)
  printLine line := modify fun s => { s with printed := s.printed ++ [line] }

end SchemaTypes.Files
