/-
Handles on ring files: making a file, opening one that is there, and the ring that a handle sees.

Making a file is all or nothing. A file is opened only if it is longer than its control block, the block carries its
mark, and both offsets lie within the capacity; the capacity is the rest of the file's length.
-/
import CircularLog.Access
import CircularLog.FileSystem
import CircularLog.Ring.Basic

namespace CircularLog

structure Handle where
  path : Path
  /-- the index of the file's image -/
  node : Nat
  access : Access
  capacity : Nat
  cursor : Nat
deriving DecidableEq, Repr

namespace Handle

/-- the least capacity of a ring: the shortest frame and the byte that stays free -/
def minCapacity : Nat := 2

/-- the capacity of a ring in a file of this size -/
def capacityOfFileSize (size : Nat) : Outcome Nat :=
  if size < ControlBlock.size + minCapacity then refuse (.fileSizeTooSmall size) else .ok (size - ControlBlock.size)

/-- gives an empty file the length and the control block of a ring that holds no record -/
def format (fs : FileSystem) (node capacity : Nat) : Outcome FileSystem :=
  if Image.maxSize < ControlBlock.size + capacity then refuse (.system none .lengthOutOfRange)
  else .ok (fs.setImage node (.blank capacity))

/-- a new file for a ring of this capacity, and the index of its image; a file that cannot be given its length is taken
away again -/
def createFile (fs : FileSystem) (path : Path) (capacity : Nat) : FileSystem × Outcome Nat :=
  if Word.bound ≤ ControlBlock.size + capacity then (fs, refuse .capacityOverflow)
  else
    match fs.create path with
    | .error cause => (fs, refuse (.opening cause))
    | .ok (made, node) =>
      match format made node capacity with
      | .ok formatted => (formatted, .ok node)
      | .error stop => ((made.remove path).toOption.getD made, .error stop)

/-- the index of the image of a ring's file, and the ring's capacity -/
def openFile (fs : FileSystem) (path : Path) (access : Access) : Outcome (Nat × Nat) :=
  match fs.lookup path with
  | .error cause => refuse (.opening cause)
  | .ok (_, .directory) =>
    match access with
    | .read => refuse (.system none (.system .isDirectory))
    | .append => refuse (.opening (.system .isDirectory))
  | .ok (_, .file node) => do
    let image := fs.image node
    if image.size ≤ ControlBlock.size then refuse (.fileTooShort image.size)
    let capacity := image.size - ControlBlock.size
    let block ← ControlBlock.decode (image.slice 0 ControlBlock.size)
    block.validate capacity
    return (node, capacity)

/-- a new ring, and a handle that appends to it -/
def create (fs : FileSystem) (path : Path) (capacity : Nat) : FileSystem × Outcome Handle :=
  if capacity < minCapacity then (fs, refuse (.capacityTooSmall capacity))
  else
    let (fs, result) := createFile fs path capacity
    (fs, result.map fun node => { path, node, access := .append, capacity, cursor := 0 })

/-- a handle on a ring that is there, before its oldest record -/
def openRing (fs : FileSystem) (path : Path) (access : Access) : Outcome Handle := do
  let (node, capacity) ← openFile fs path access
  return { path, node, access, capacity, cursor := (fs.image node).start }

/-- the ring as the handle sees it -/
def ring (handle : Handle) (fs : FileSystem) : Ring :=
  { image := fs.image handle.node, capacity := handle.capacity, cursor := handle.cursor }

end Handle

/-- the ring's bytes in the file of the handle, and its cursor in the handle -/
def Ring.save (r : Ring) (fs : FileSystem) (handle : Handle) : FileSystem × Handle :=
  (fs.setImage handle.node r.image, { handle with cursor := r.cursor })

end CircularLog
