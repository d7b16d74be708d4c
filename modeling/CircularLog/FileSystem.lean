/-
A tree of directories and files. A place in it is the list of names that lead there from the root. A file's bytes are
kept apart from its name, so that they outlive the name for whoever has the file open.

A path is looked up name by name. Of two faults the one met first is reported: a zero byte before everything else, then
an empty or overlong path, then the names in their order, then a slash after the name of a file.
-/
import CircularLog.Cause
import CircularLog.Image
import CircularLog.Path

namespace CircularLog

abbrev Place := List Bytes

inductive Entry where
  | directory
  /-- a file, whose bytes are the image with this index -/
  | file (node : Nat)
deriving DecidableEq, Repr

structure FileSystem where
  /-- everything but the root -/
  entries : List (Place × Entry) := []
  /-- the bytes of all files there ever were -/
  images : Array Image := #[]
deriving DecidableEq, Repr

namespace Path

def slash : UInt8 := 0x2F

/-- the names between the slashes -/
def names (path : Path) : List Bytes :=
  (path.bytes.splitBy fun a b => a ≠ slash ∧ b ≠ slash).filter (·.head? ≠ some slash)

def endsInSlash (path : Path) : Bool := path.bytes.getLast? = some slash

end Path

namespace FileSystem

/-- the longest name of an entry, in bytes -/
def maxName : Nat := 255

/-- the longest path, in bytes -/
def maxPath : Nat := 4095

/-- the name of a directory itself -/
def here : Bytes := [0x2E]

/-- the name of the directory above -/
def above : Bytes := [0x2E, 0x2E]

def find? (fs : FileSystem) (place : Place) : Option Entry :=
  if place.isEmpty then some .directory else (fs.entries.find? (·.1 == place)).map Prod.snd

/-- one name further, from a place that exists -/
def step (fs : FileSystem) (place : Place) (name : Bytes) : Except Cause Place :=
  if fs.find? place ≠ some .directory then .error (.system .notDirectory)
  else if name = here then .ok place
  else if name = above then .ok place.dropLast
  else if maxName < name.length then .error (.system .nameTooLong)
  else if (fs.find? (place ++ [name])).isNone then .error (.system .notFound)
  else .ok (place ++ [name])

/-- what is wrong with a path before any name is looked up -/
def checked (path : Path) : Except Cause Unit :=
  if path.bytes.contains 0 then .error .zeroInName
  else if path.bytes.isEmpty then .error (.system .notFound)
  else if maxPath < path.bytes.length then .error (.system .nameTooLong)
  else .ok ()

/-- the entry that a path names -/
def lookup (fs : FileSystem) (path : Path) : Except Cause (Place × Entry) := do
  checked path
  let place ← path.names.foldlM fs.step []
  match fs.find? place with
  | none => throw (.system .notFound)
  | some (.file node) =>
    if path.endsInSlash then throw (.system .notDirectory)
    pure (place, .file node)
  | some .directory => pure (place, .directory)

/-- the place that a path names, where nothing is yet; only a directory's name may end in a slash -/
def vacancy (fs : FileSystem) (path : Path) (forDirectory : Bool) : Except Cause Place := do
  checked path
  let names := path.names
  let parent ← names.dropLast.foldlM fs.step []
  if fs.find? parent ≠ some .directory then throw (.system .notDirectory)
  match names.getLast? with
  | none => throw (.system .alreadyExists)
  | some name =>
    if name = here ∨ name = above then throw (.system .alreadyExists)
    if path.endsInSlash ∧ !forDirectory then throw (.system .isDirectory)
    if maxName < name.length then throw (.system .nameTooLong)
    if (fs.find? (parent ++ [name])).isSome then throw (.system .alreadyExists)
    pure (parent ++ [name])

def image (fs : FileSystem) (node : Nat) : Image := fs.images[node]?.getD .empty

def setImage (fs : FileSystem) (node : Nat) (image : Image) : FileSystem :=
  { fs with images := fs.images.setIfInBounds node image }

/-- the index of the image of the file that a path names -/
def node (fs : FileSystem) (path : Path) : Except Cause Nat := do
  match ← fs.lookup path with
  | (_, .directory) => throw (.system .isDirectory)
  | (_, .file node) => pure node

/-- a new file, which is empty, and the index of its image -/
def create (fs : FileSystem) (path : Path) : Except Cause (FileSystem × Nat) := do
  let place ← fs.vacancy path false
  return ({ entries := (place, .file fs.images.size) :: fs.entries, images := fs.images.push .empty }, fs.images.size)

def createDirectory (fs : FileSystem) (path : Path) : Except Cause FileSystem := do
  let place ← fs.vacancy path true
  return { fs with entries := (place, .directory) :: fs.entries }

/-- takes a file's name away -/
def remove (fs : FileSystem) (path : Path) : Except Cause FileSystem := do
  match ← fs.lookup path with
  | (_, .directory) => throw (.system .isDirectory)
  | (place, .file _) => return { fs with entries := fs.entries.filter (·.1 != place) }

/-- the whole of a file, which is made if it is missing -/
def put (fs : FileSystem) (path : Path) (data : Bytes) : Except Cause FileSystem :=
  match fs.lookup path with
  | .ok (_, .directory) => .error (.system .isDirectory)
  | .ok (_, .file node) => .ok (fs.setImage node (.ofBytes data))
  | .error _ => do
    let (fs, node) ← fs.create path
    return fs.setImage node (.ofBytes data)

/-- lays the bytes over those of the file that a path names, from the position on -/
def overwrite (fs : FileSystem) (path : Path) (position : Nat) (data : Bytes) : Except Cause FileSystem := do
  let node ← fs.node path
  if Image.maxSize < position + data.length then throw (.system .invalidArgument)
  return fs.setImage node ((fs.image node).write position data)

/-- gives the file that a path names this length -/
def truncate (fs : FileSystem) (path : Path) (length : Nat) : Except Cause FileSystem := do
  let node ← fs.node path
  if Image.maxSize < length then throw .lengthOutOfRange
  return fs.setImage node ((fs.image node).resize length)

def read (fs : FileSystem) (path : Path) : Except Cause Image := fs.image <$> fs.node path

/-- the places that names lead to, one after another, from a place on -/
def places : Place → List Bytes → List Place
  | _, [] => []
  | place, name :: rest =>
    if name = here then places place rest
    else if name = above then places place.dropLast rest
    else (place ++ [name]) :: places (place ++ [name]) rest

/-- a file system of which only this path is known: the directories on the way, and at its end what was found there -/
def around (path : Path) (found : Option Entry) (image : Image) : FileSystem :=
  let visited := places [] path.names
  let ways := visited.dropLast.map fun place => (place, Entry.directory)
  match visited.getLast?, found with
  | some place, some entry => { entries := (place, entry) :: ways, images := #[image] }
  | _, _ => { entries := ways, images := #[] }

end FileSystem

end CircularLog
