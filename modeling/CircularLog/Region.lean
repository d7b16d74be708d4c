/-
Reading and writing the circle of data in a file. An offset is taken modulo the capacity, and a transfer is at most as
long as the capacity. `locate` finds the segments of a transfer, or refuses it before a byte is read or written; what is
left to fail after that is a file that ends too early to be read.
-/
import CircularLog.Image
import CircularLog.Span

namespace CircularLog.Region

def span (capacity offset length : Nat) : Outcome Span :=
  if capacity < length then refuse (.transferTooLong length) else Span.split offset length capacity

/-- refuses a segment that goes on where no file can have a byte -/
def seek (segment : Segment) : Outcome Unit :=
  if Image.maxSize < segment.position + segment.length then
    refuse (.system (some segment.position) (.system .invalidArgument))
  else .ok ()

/-- the segments of a transfer -/
def locate (capacity offset length : Nat) : Outcome (List Segment) := do
  let segments := (← span capacity offset length).segments
  segments.forM seek
  return segments

/-- the bytes of one segment that were delivered, and how it ended -/
def readSegment (image : Image) (segment : Segment) : Bytes × Outcome Unit :=
  let bytes := image.slice segment.position segment.length
  (bytes, if bytes.length < segment.length then refuse (.system (some segment.position) .endOfFile) else .ok ())

def readSegments (image : Image) : List Segment → Bytes × Outcome Unit
  | [] => ([], .ok ())
  | segment :: rest =>
    match readSegment image segment with
    | (bytes, .error stop) => (bytes, .error stop)
    | (bytes, .ok ()) =>
      let (more, result) := readSegments image rest
      (bytes ++ more, result)

/-- the bytes that were delivered, and how it ended: all of them, if it ended well -/
def read (image : Image) (capacity offset length : Nat) : Bytes × Outcome Unit :=
  match locate capacity offset length with
  | .error stop => ([], .error stop)
  | .ok segments => readSegments image segments

/-- all of the bytes or none -/
def fetch (image : Image) (capacity offset length : Nat) : Outcome Bytes :=
  match read image capacity offset length with
  | (bytes, .ok ()) => .ok bytes
  | (_, .error stop) => .error stop

/-- the file with the bytes in the segments, one after another -/
def scatter (image : Image) : List Segment → Bytes → Image
  | [], _ => image
  | segment :: rest, data =>
    scatter (image.write segment.position (data.take segment.length)) rest (data.drop segment.length)

/-- all of the bytes or none -/
def write (image : Image) (capacity offset : Nat) (data : Bytes) : Outcome Image := do
  return scatter image (← locate capacity offset data.length) data

end CircularLog.Region
