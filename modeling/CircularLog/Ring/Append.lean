/-
Appending a record, all at once or piece by piece. Room is made first, by dropping the oldest records until more bytes
are free than the new frame takes. What was dropped stays dropped when the append is refused after all.

A record that arrives in pieces is held by a `Writer`: the pieces go to their places behind the length prefix, and only
`Writer.finish` writes the prefix and moves the stop offset, so that an abandoned record is never seen.
-/
import CircularLog.Ring.Basic

namespace CircularLog

namespace Ring

/-- the frame of the oldest record, and the offset behind it -/
def oldest (r : Ring) : Outcome (Frame × Nat) := do
  let start := r.image.start
  let stop := r.image.stop
  if start = stop then refuse .nothingToEvict
  let frame ← r.frameAt start stop
  return (frame, ← Circle.advance r.capacity start frame.length)

/-- drops the oldest record; a cursor within that record moves to the next one -/
def evict (r : Ring) : Ring × Outcome Unit :=
  match r.oldest with
  | .error stop => (r, .error stop)
  | .ok (frame, next) =>
    let r := { r with image := r.image.setStart next }
    match Circle.distance r.capacity frame.offset r.cursor with
    | .error stop => (r, .error stop)
    | .ok passed => ({ r with cursor := if passed < frame.length then next else r.cursor }, .ok ())

/-- drops the oldest records, at most `fuel` of them, until more than `length` bytes are free -/
def reserveWithin : Nat → Ring → Nat → Ring × Outcome Unit
  | 0, r, _ => (r, .error (.fault .endless))
  | fuel + 1, r, length =>
    match r.available with
    | .error stop => (r, .error stop)
    | .ok free =>
      if length < free then (r, .ok ())
      else
        match r.evict with
        | (r, .error stop) => (r, .error stop)
        | (r, .ok ()) => reserveWithin fuel r length

/-- the start offset has `capacity` places to be at, and so the drops end by then or never -/
def reserve (r : Ring) (length : Nat) : Ring × Outcome Unit := reserveWithin (r.capacity + 2) r length

/-- the length of the frame of a new record, which leaves at least one byte of the circle free -/
def fitting (r : Ring) (payload : Nat) : Outcome Nat :=
  if frameLength payload < r.capacity then pure (frameLength payload)
  else refuse (.recordTooLarge r.capacity payload)

/-- room for a record of this length, and the refusal if there can be none -/
def makeRoom (r : Ring) (payload : Nat) : Ring × Outcome Unit :=
  match r.fitting payload with
  | .error stop => (r, .error stop)
  | .ok length => r.reserve length

/-- the segments for the prefix and for the bytes of a new record, and the offset behind it -/
structure Vacancy where
  header : List Segment
  payload : List Segment
  next : Nat
deriving DecidableEq, Repr

/-- the vacancy behind the newest record -/
def vacancy (r : Ring) (payload : Nat) : Outcome Vacancy := do
  let stop := r.image.stop
  let header ← Region.locate r.capacity stop (Varint.size payload)
  let offset ← Word.add stop (Varint.size payload)
  return { header, payload := ← Region.locate r.capacity offset payload
           next := ← Circle.advance r.capacity stop (frameLength payload) }

/-- the record in its vacancy, as the newest one -/
def place (r : Ring) (vacancy : Vacancy) (payload : Bytes) : Ring :=
  let image := Region.scatter r.image vacancy.header (Varint.encode payload.length)
  { r with image := (Region.scatter image vacancy.payload payload).setStop vacancy.next }

def append (r : Ring) (payload : Bytes) : Ring × Outcome Unit :=
  match r.makeRoom payload.length with
  | (r, .error stop) => (r, .error stop)
  | (r, .ok ()) =>
    match r.vacancy payload.length with
    | .error stop => (r, .error stop)
    | .ok vacancy => (r.place vacancy payload, .ok ())

end Ring

/-- a record that is being written: where its prefix will be, its length, the place of its next byte, what is missing -/
structure Writer where
  offset : Nat
  total : Nat
  next : Nat
  remaining : Nat
deriving DecidableEq, Repr

namespace Writer

/-- a writer at the stop offset, where there is room for the record -/
def atStop (r : Ring) (total : Nat) : Outcome Writer := do
  let offset := r.image.stop
  return { offset, total, next := ← Circle.advance r.capacity offset (Varint.size total), remaining := total }

/-- makes room for a record of this length -/
def start (r : Ring) (total : Nat) : Ring × Outcome Writer :=
  match r.makeRoom total with
  | (r, .error stop) => (r, .error stop)
  | (r, .ok ()) => (r, atStop r total)

/-- writes a piece of the record behind the pieces before it -/
def put (writer : Writer) (r : Ring) (chunk : Bytes) : Outcome (Ring × Writer) := do
  if writer.remaining < chunk.length then refuse (.chunkTooLong chunk.length writer.remaining writer.total)
  if chunk.isEmpty then return (r, writer)
  let image ← Region.write r.image r.capacity writer.next chunk
  let next ← Circle.advance r.capacity writer.next chunk.length
  return ({ r with image }, { writer with next, remaining := writer.remaining - chunk.length })

/-- makes the record the newest one, if all of it has been written -/
def finish (writer : Writer) (r : Ring) : Outcome Ring := do
  if writer.remaining ≠ 0 then refuse (.unfinished writer.remaining writer.total)
  let image ← Region.write r.image r.capacity writer.offset (Varint.encode writer.total)
  let stop ← Circle.advance r.capacity writer.offset (frameLength writer.total)
  return { r with image := image.setStop (← Word.mod stop r.capacity) }

end Writer

end CircularLog
