/-
A ring: the file's bytes as one handle sees them, the capacity that the handle took when it was opened, and the place of
the record that the handle reads next.

A record lies on the circle as a frame, a length prefix and then the record's bytes. The frames from the start offset to
the stop offset are the ring's records, oldest first; the offsets are equal exactly when there is none, and so one byte
of the circle is always free.
-/
import CircularLog.ControlBlock
import CircularLog.Region
import CircularLog.Varint

namespace CircularLog

structure Ring where
  image : Image
  capacity : Nat
  cursor : Nat
deriving DecidableEq, Repr

/-- where a record lies: the offset of its length prefix, the length of the prefix, and the length of the record -/
structure Frame where
  offset : Nat
  header : Nat
  payload : Nat
deriving DecidableEq, Repr

/-- what is known of a ring without reading its records -/
structure Usage where
  fileSize : Nat
  capacity : Nat
  used : Nat
  available : Nat
  start : Nat
  stop : Nat
  flags : Nat
deriving DecidableEq, Repr

def Frame.length (frame : Frame) : Nat := frame.header + frame.payload

/-- the length of the frame of a record, with the shortest prefix -/
def frameLength (payload : Nat) : Nat := Varint.size payload + payload

namespace Ring

def used (r : Ring) : Outcome Nat := Circle.distance r.capacity r.image.start r.image.stop

def available (r : Ring) : Outcome Nat := do
  Word.sub r.capacity (← r.used)

def usage (r : Ring) : Outcome Usage := do
  let used ← r.used
  let fileSize ← Word.add ControlBlock.size r.capacity
  let available ← Word.sub r.capacity used
  pure { fileSize, capacity := r.capacity, used, available, start := r.image.start, stop := r.image.stop
         flags := r.image.flags }

/-- the frame at an offset before `stop`; it ends at `stop` or before, if its prefix is the shortest -/
def frameAt (r : Ring) (offset stop : Nat) : Outcome Frame := do
  let available ← Circle.distance r.capacity offset stop
  let front ← Region.fetch r.image r.capacity offset (min available Varint.maxSize)
  match Varint.decode front with
  | .error e => refuse (.undecodableLength offset e)
  | .ok (payload, header) =>
    if available < frameLength payload then refuse (.frameTooLong offset payload)
    else pure { offset, header, payload }

/-- the frame under the cursor, unless the cursor is behind the newest record -/
def next (r : Ring) : Outcome (Option Frame) :=
  if r.cursor = r.image.stop then pure none else some <$> r.frameAt r.cursor r.image.stop

/-- the length of the next record -/
def nextSize (r : Ring) : Outcome (Option Nat) := do
  return (← r.next).map Frame.payload

/-- back to the oldest record -/
def rewind (r : Ring) : Ring := { r with cursor := r.image.start }

/-- the ring after an operation that changes nothing when it is refused -/
def after {α : Type} (r : Ring) : Outcome (Ring × α) → Ring × Outcome α
  | .ok (changed, a) => (changed, .ok a)
  | .error stop => (r, .error stop)

end Ring

/-- the longest record, of at most `payload` bytes, whose frame is within the budget -/
def longestWithin (budget : Nat) : Nat → Option Nat
  | 0 => if frameLength 0 ≤ budget then some 0 else none
  | payload + 1 =>
    if frameLength (payload + 1) ≤ budget then some (payload + 1) else longestWithin budget payload

/-- the longest record that a ring of this capacity takes; its frame leaves one byte free -/
def maxPayload (capacity : Nat) : Option Nat :=
  if capacity = 0 then none else longestWithin (capacity - 1) (capacity - 1 - 1)

end CircularLog
