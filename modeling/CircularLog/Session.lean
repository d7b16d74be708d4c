/-
Handles by name on the files of one file system. All handles on a file see the same bytes; each has a cursor of its own.

A handle whose record is being written or read in pieces is lent out until that ends: no name leads to it meanwhile. The
latest loan is the one that pieces belong to.
-/
import CircularLog.Handle
import CircularLog.Ring.Append
import CircularLog.Ring.Read

namespace CircularLog

/-- why a request has no value -/
inductive Denial where
  | unknownHandle
  /-- the handle only reads -/
  | notAppender
  | refused (report : Report)
  | fault (f : Fault)
deriving DecidableEq, Repr

def Denial.ofStop (path : Path) : Stop → Denial
  | .refused r => .refused (r.report (some path))
  | .fault f => .fault f

abbrev Reply (α : Type) := Except Denial α

/-- the value, or the denial that a caller who named this path is given -/
def Outcome.reply {α : Type} (result : Outcome α) (path : Path) : Reply α := result.mapError (.ofStop path)

/-- a record in pieces -/
inductive Stream where
  | writing (writer : Writer)
  | reading (reader : Reader)
deriving DecidableEq, Repr

/-- how many bytes of the record are still to come, and how many it has -/
def Stream.left : Stream → Nat × Nat
  | .writing writer => (writer.remaining, writer.total)
  | .reading reader => (reader.remaining, reader.total)

structure Loan where
  name : String
  handle : Handle
  stream : Stream
deriving DecidableEq, Repr

structure Session where
  files : FileSystem := {}
  handles : List (String × Handle) := []
  loans : List Loan := []
deriving DecidableEq, Repr

namespace Session

def find? (s : Session) (name : String) : Option Handle := (s.handles.find? (·.1 == name)).map Prod.snd

def release (s : Session) (name : String) : Session := { s with handles := s.handles.filter (·.1 != name) }

/-- the handle under this name, in place of the one that had it -/
def bind (s : Session) (name : String) (handle : Handle) : Session :=
  { s.release name with handles := (name, handle) :: (s.release name).handles }

/-- the offsets in the file that the handle's path leads to, if it leads to one, and the handle's cursor -/
def status (s : Session) (name : String) : Option (Option (Nat × Nat) × Nat) := do
  let handle ← s.find? name
  let offsets := match s.files.read handle.path with
    | .error _ => none
    | .ok image => if image.size < ControlBlock.size then none else some (image.start, image.stop)
  return (offsets, handle.cursor)

def create (s : Session) (name : String) (path : Path) (capacity : Nat) : Session × Reply Unit :=
  match Handle.create s.files path capacity with
  | (files, .error stop) => ({ s with files }, .error (.ofStop path stop))
  | (files, .ok handle) => ({ s with files }.bind name handle, .ok ())

/-- a new ring in a file of this size -/
def createSized (s : Session) (name : String) (path : Path) (size : Nat) : Session × Reply Unit :=
  match Handle.capacityOfFileSize size with
  | .error stop => (s, .error (.ofStop path stop))
  | .ok capacity => s.create name path capacity

def openRing (s : Session) (name : String) (path : Path) (access : Access) : Session × Reply Unit :=
  match Handle.openRing s.files path access with
  | .error stop => (s, .error (.ofStop path stop))
  | .ok handle => (s.bind name handle, .ok ())

/-- opens a ring in a mode that is given as text -/
def openMode (s : Session) (name : String) (path : Path) (mode : String) : Session × Reply Unit :=
  match Access.ofText mode with
  | .error stop => (s, .error (.ofStop path stop))
  | .ok access => s.openRing name path access

def close (s : Session) (name : String) : Session × Reply Unit :=
  match s.find? name with
  | none => (s, .error .unknownHandle)
  | some _ => (s.release name, .ok ())

/-- gives up a handle that only reads -/
def intoAppender (s : Session) (name : String) : Session × Reply Unit :=
  match s.find? name with
  | none => (s, .error .unknownHandle)
  | some handle =>
    match handle.access with
    | .append => (s, .ok ())
    | .read => (s.release name, .error (.ofStop handle.path (.refused .readOnly)))

/-- what the handle under this name may do -/
def access (s : Session) (name : String) : Reply Access :=
  match s.find? name with
  | none => .error .unknownHandle
  | some handle => .ok handle.access

/-- the handle under this name, if it may append -/
def appender (s : Session) (name : String) : Reply Handle :=
  match s.find? name with
  | none => .error .unknownHandle
  | some handle => if handle.access = .append then .ok handle else .error .notAppender

/-- asks the ring under this name -/
def query {α : Type} (s : Session) (name : String) (f : Ring → Outcome α) : Reply α :=
  match s.find? name with
  | none => .error .unknownHandle
  | some handle => (f (handle.ring s.files)).reply handle.path

/-- stores the ring in its file and the cursor in the handle -/
def save (s : Session) (name : String) (handle : Handle) (r : Ring) : Session :=
  let (files, handle) := r.save s.files handle
  { s with files }.bind name handle

/-- an operation on the ring under this name; what it has changed stays changed when it is refused -/
def change {α : Type} (s : Session) (name : String) (f : Ring → Ring × Outcome α) : Session × Reply α :=
  match s.find? name with
  | none => (s, .error .unknownHandle)
  | some handle =>
    let (r, result) := f (handle.ring s.files)
    (s.save name handle r, result.reply handle.path)

def rewind (s : Session) (name : String) : Session × Reply Unit := s.change name fun r => (r.rewind, .ok ())

def record (s : Session) (name : String) : Session × Reply (Option Bytes) := s.change name fun r => r.after r.record

/-- reads the next record into a buffer, which is given back -/
def read (s : Session) (name : String) (buffer : Bytes) : Session × Reply (Bytes × Reply (Option Nat)) :=
  match s.find? name with
  | none => (s, .error .unknownHandle)
  | some handle =>
    let r := handle.ring s.files
    let (buffer, result) := r.read buffer
    let (r, result) := r.after result
    (s.save name handle r, .ok (buffer, result.reply handle.path))

/-- the next records, at most `count` of them, and the denial that ended the reading, or whether nothing was left -/
def drain (s : Session) (name : String) (count : Nat) : Session × Reply (List Bytes × Reply Bool) :=
  match s.find? name with
  | none => (s, .error .unknownHandle)
  | some handle =>
    let (r, records, ending) := (handle.ring s.files).drain count
    let result := match ending with
      | .enough => .ok false
      | .exhausted => .ok true
      | .stopped stop => .error (.ofStop handle.path stop)
    (s.save name handle r, .ok (records, result))

def append (s : Session) (name : String) (payload : Bytes) : Session × Reply Unit :=
  match s.appender name with
  | .error denial => (s, .error denial)
  | .ok _ => s.change name (·.append payload)

/-- takes the handle out of its name's place -/
def lend (s : Session) (loan : Loan) : Session := { s.release loan.name with loans := loan :: s.loans }

/-- begins a record of this length; its pieces follow -/
def startWrite (s : Session) (name : String) (total : Nat) : Session × Reply Unit :=
  match s.appender name with
  | .error denial => (s, .error denial)
  | .ok handle =>
    let (r, result) := Writer.start (handle.ring s.files) total
    let (files, handle) := r.save s.files handle
    let s := { s with files }.bind name handle
    match result with
    | .error stop => (s, .error (.ofStop handle.path stop))
    | .ok writer => (s.lend { name, handle, stream := .writing writer }, .ok ())

/-- begins to read the next record, and says whether there is one -/
def startRead (s : Session) (name : String) : Session × Reply Bool :=
  match s.find? name with
  | none => (s, .error .unknownHandle)
  | some handle =>
    match Reader.start (handle.ring s.files) with
    | .error stop => (s, .error (.ofStop handle.path stop))
    | .ok none => (s, .ok false)
    | .ok (some reader) => (s.lend { name, handle, stream := .reading reader }, .ok true)

/-- how much of the record in pieces is still to come, and how long it is -/
def left (s : Session) : Option (Nat × Nat) := s.loans.head?.map (·.stream.left)

/-- ends the latest loan; the record in pieces is abandoned -/
def leave (s : Session) : Session :=
  match s.loans with
  | [] => s
  | loan :: rest => { s with loans := rest }.bind loan.name loan.handle

/-- writes a piece of the record that is being written -/
def put (s : Session) (chunk : Bytes) : Session × Reply Unit :=
  match s.loans with
  | { name, handle, stream := .writing writer } :: rest =>
    match writer.put (handle.ring s.files) chunk with
    | .error stop => (s, .error (.ofStop handle.path stop))
    | .ok (r, writer) =>
      let (files, handle) := r.save s.files handle
      ({ s with files, loans := { name, handle, stream := .writing writer } :: rest }, .ok ())
  | _ => (s, .error .unknownHandle)

/-- a piece of the record that is being read, of at most `length` bytes: the bytes that were delivered, and how many are
the piece -/
def take (s : Session) (length : Nat) : Session × Bytes × Reply Nat :=
  match s.loans with
  | { name, handle, stream := .reading reader } :: rest =>
    match reader.take (handle.ring s.files) length with
    | (delivered, .error stop) => (s, delivered, .error (.ofStop handle.path stop))
    | (delivered, .ok next) =>
      ({ s with loans := { name, handle, stream := .reading next } :: rest }, delivered, .ok delivered.length)
  | _ => (s, [], .error .unknownHandle)

/-- an operation of the reader of the latest loan -/
def readOn {α : Type} (s : Session) (f : Reader → Ring → Reader × Outcome α) : Session × Reply α :=
  match s.loans with
  | { name, handle, stream := .reading reader } :: rest =>
    let (reader, result) := f reader (handle.ring s.files)
    ({ s with loans := { name, handle, stream := .reading reader } :: rest }, result.reply handle.path)
  | _ => (s, .error .unknownHandle)

/-- ends the latest loan, and makes the record in pieces the newest one or passes over it -/
def finish (s : Session) : Session × Reply Unit :=
  match s.loans with
  | [] => (s, .error .unknownHandle)
  | { name, handle, stream } :: rest =>
    let s := { s with loans := rest }
    let r := handle.ring s.files
    let result := match stream with
      | .writing writer => writer.finish r
      | .reading reader => reader.finish r
    match result with
    | .error stop => (s.bind name handle, .error (.ofStop handle.path stop))
    | .ok r => (s.save name handle r, .ok ())

end Session

end CircularLog
