/-
Reading the next record, all at once or piece by piece. A read that is refused leaves the ring as it was; it may have
delivered the first bytes of the record into the caller's buffer all the same.

A record that is read in pieces is held by a `Reader`. The cursor stays where it is until `Reader.finish`.
-/
import CircularLog.Ring.Basic

namespace CircularLog

/-- the length beyond which no buffer can be had: `2 ^ 63 - 1` -/
def maxBuffer : Nat := 0x7fffffffffffffff

/-- the buffer with the bytes laid over its front -/
def fill (buffer delivered : Bytes) : Bytes := delivered ++ buffer.drop delivered.length

namespace Ring

/-- the ring with the cursor behind the frame -/
def skip (r : Ring) (frame : Frame) : Outcome Ring := do
  return { r with cursor := ← Circle.advance r.capacity frame.offset frame.length }

/-- `length` bytes of the frame's record, from its `consumed`-th on -/
def readPayload (r : Ring) (frame : Frame) (consumed length : Nat) : Bytes × Outcome Unit :=
  match (do Word.add (← Word.add frame.offset frame.header) consumed : Outcome Nat) with
  | .error stop => ([], .error stop)
  | .ok offset => Region.read r.image r.capacity offset length

/-- the next record in the caller's buffer: the buffer afterwards, and the record's length unless there is none -/
def read (r : Ring) (buffer : Bytes) : Bytes × Outcome (Ring × Option Nat) :=
  match r.next with
  | .error stop => (buffer, .error stop)
  | .ok none => (buffer, .ok (r, none))
  | .ok (some frame) =>
    if buffer.length < frame.payload then (buffer, refuse (.bufferTooSmall frame.offset frame.payload))
    else
      let (delivered, result) := r.readPayload frame 0 frame.payload
      (fill buffer delivered, do
        result
        return (← r.skip frame, some frame.payload))

/-- the next record, unless there is none -/
def record (r : Ring) : Outcome (Ring × Option Bytes) := do
  match ← r.next with
  | none => return (r, none)
  | some frame =>
    if maxBuffer < frame.payload then throw (.fault .outOfRange)
    let (payload, result) := r.readPayload frame 0 frame.payload
    result
    return (← r.skip frame, some payload)

/-- how reading one record after another came to its end -/
inductive Ending where
  /-- as many records were read as were asked for -/
  | enough
  /-- there is no further record -/
  | exhausted
  | stopped (stop : Stop)
deriving DecidableEq, Repr

/-- reads on behind the records read so far, the last of which comes first -/
def drainFrom : Nat → Ring → List Bytes → Ring × List Bytes × Ending
  | 0, r, taken => (r, taken.reverse, .enough)
  | count + 1, r, taken =>
    match r.record with
    | .error stop => (r, taken.reverse, .stopped stop)
    | .ok (r, none) => (r, taken.reverse, .exhausted)
    | .ok (r, some payload) => drainFrom count r (payload :: taken)

/-- the next records, at most `count` of them -/
def drain (r : Ring) (count : Nat) : Ring × List Bytes × Ending := drainFrom count r []

end Ring

/-- a record that is being read: where it lies, and how much of it has been read -/
structure Reader where
  frame : Frame
  consumed : Nat := 0
deriving DecidableEq, Repr

namespace Reader

/-- a reader of the next record, unless there is none -/
def start (r : Ring) : Outcome (Option Reader) := do
  return (← r.next).map fun frame => { frame }

def total (reader : Reader) : Nat := reader.frame.payload

def remaining (reader : Reader) : Nat := reader.total - reader.consumed

/-- at most `length` bytes more: the bytes delivered, and the reader behind them -/
def take (reader : Reader) (r : Ring) (length : Nat) : Bytes × Outcome Reader :=
  let length := min reader.remaining length
  if length = 0 then ([], .ok reader)
  else
    let (delivered, result) := r.readPayload reader.frame reader.consumed length
    (delivered, do
      result
      return { reader with consumed := reader.consumed + length })

/-- exactly `length` bytes more, or nothing when the record ends before; what is left of it is passed over then -/
def takeExact (reader : Reader) (r : Ring) (length : Nat) : Reader × Outcome (Option Bytes) :=
  match reader.take r length with
  | (_, .error stop) => (reader, .error stop)
  | (delivered, .ok next) => (next, .ok (if delivered.length < length then none else some delivered))

/-- the rest of the record in pieces, each as long as all that this call has read before it, and at least 32 -/
def takePieces (r : Ring) : Nat → Reader → Bytes → Reader × Outcome Bytes
  | 0, reader, taken => (reader, .ok taken)
  | fuel + 1, reader, taken =>
    if reader.remaining = 0 then (reader, .ok taken)
    else
      match reader.take r (max 32 taken.length) with
      | (_, .error stop) => (reader, .error stop)
      | (delivered, .ok next) => takePieces r fuel next (taken ++ delivered)

/-- the rest of the record; what was read before a refusal is lost -/
def takeAll (reader : Reader) (r : Ring) : Reader × Outcome Bytes := takePieces r (reader.remaining + 1) reader []

/-- moves the ring's cursor behind the record, whether it was read or not -/
def finish (reader : Reader) (r : Ring) : Outcome Ring := do
  let r ← r.skip reader.frame
  return { r with cursor := ← Word.mod r.cursor r.capacity }

end Reader

end CircularLog
