/-
What can be asked of the handles on one ring file, in any order, and what of it concerns the queue that the file stands
for. Loans make the records in pieces interleave: `Session.Request.turn` chooses which of them the next piece belongs
to.

- `Session.Request.event?`: what a request asks of the queue.
- `Session.Orderly`: no two records are being written at once.
-/
import CircularLog.Proofs.Queue
import CircularLog.Session


namespace CircularLog

/-- what is asked of the handles on a ring file, each under its name -/
inductive Session.Request where
  | openRing (name : String) (access : Access)
  | close (name : String)
  | rewind (name : String)
  | record (name : String)
  | read (name : String) (buffer : Bytes)
  | append (name : String) (payload : Bytes)
  | startWrite (name : String) (total : Nat)
  | startRead (name : String)
  /-- the pieces that follow belong to the loan with this index -/
  | turn (index : Nat)
  | put (chunk : Bytes)
  | take (length : Nat)
  | takeExact (length : Nat)
  | takeAll
  | finish
  | leave
deriving DecidableEq, Repr

def Stream.writer? : Stream → Option Writer
  | .writing writer => some writer
  | .reading _ => none

namespace Session

/-- makes the loan with this index the latest one -/
def turn (s : Session) (index : Nat) : Session :=
  match s.loans[index]? with
  | none => s
  | some loan => { s with loans := loan :: s.loans.eraseIdx index }

/-- the answer without what was read -/
def mute {α : Type} (result : Session × Reply α) : Session × Reply Unit := (result.1, result.2.map fun _ => ())

/-- the session after a request to the handles on the file of this path, and the answer -/
def serve (path : Path) (s : Session) : Request → Session × Reply Unit
  | .openRing name access => s.openRing name path access
  | .close name => s.close name
  | .rewind name => s.rewind name
  | .record name => mute (s.record name)
  | .read name buffer => mute (s.read name buffer)
  | .append name payload => s.append name payload
  | .startWrite name total => s.startWrite name total
  | .startRead name => mute (s.startRead name)
  | .turn index => (s.turn index, .ok ())
  | .put chunk => s.put chunk
  | .take length => ((s.take length).1, (s.take length).2.2.map fun _ => ())
  | .takeExact length => mute (s.readOn fun reader r => reader.takeExact r length)
  | .takeAll => mute (s.readOn Reader.takeAll)
  | .finish => s.finish
  | .leave => (s.leave, .ok ())

/-- the records that are being written -/
def writers (s : Session) : List Writer := s.loans.filterMap (·.stream.writer?)

/-- whether the pieces that follow are to be written -/
def writing (s : Session) : Bool := (s.loans.head?.bind (·.stream.writer?)).isSome

end Session

/-- what a request asks of the queue, if it reaches an appending handle or a writer -/
def Session.Request.event? (s : Session) : Session.Request → Option Event
  | .append name payload => (s.appender name).toOption.map fun _ => .append payload
  | .startWrite name total => (s.appender name).toOption.map fun _ => .start total
  | .put chunk => if s.writing then some (.put chunk) else none
  | .finish => if s.writing then some .finish else none
  | .leave => if s.writing then some .leave else none
  | _ => none

/-- whether the event appends or begins a record -/
def Event.begins : Event → Bool
  | .append _ => true
  | .start _ => true
  | _ => false

/-- no record is appended or begun while another is being written -/
def Session.Admits (s : Session) (request : Session.Request) : Prop :=
  (request.event? s).any Event.begins → s.writers = []

instance (s : Session) (request : Session.Request) : Decidable (s.Admits request) :=
  inferInstanceAs (Decidable (_ → _))

namespace Session

/-- the session after the requests, and what they asked of the queue, each with its answer -/
def run (path : Path) : Session → List Request → Session × List (Event × Reply Unit)
  | s, [] => (s, [])
  | s, request :: rest =>
    let (next, answer) := s.serve path request
    let (last, log) := run path next rest
    (last, (request.event? s).toList.map (·, answer) ++ log)

/-- no two records are being written at once -/
def Orderly (path : Path) : Session → List Request → Prop
  | _, [] => True
  | s, request :: rest => s.Admits request ∧ Orderly path (s.serve path request).1 rest

instance decidableOrderly (path : Path) :
    (s : Session) → (requests : List Request) → Decidable (s.Orderly path requests)
  | _, [] => .isTrue trivial
  | s, request :: rest =>
    have := decidableOrderly path (s.serve path request).1 rest
    inferInstanceAs (Decidable (s.Admits request ∧ Orderly path (s.serve path request).1 rest))

/-- a run is orderly as far as it has come -/
theorem Orderly.front {path : Path} {s : Session} {requests done : List Request} (h : s.Orderly path requests)
    (hfront : done <+: requests) : s.Orderly path done := by
  induction done generalizing s requests with
  | nil => trivial
  | cons request done ih =>
    obtain ⟨rest, rfl⟩ := hfront
    obtain ⟨hadmits, hrest⟩ := h
    exact ⟨hadmits, ih hrest (List.prefix_append done rest)⟩

end Session

end CircularLog
