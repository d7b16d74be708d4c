/-
Why an operation refuses. Each refusal carries what was found; the wording, the kind and the choice of what else to show
are in `Refusal.report`, the one place that knows them. The path is the caller's: an operation on an open ring does not
need it.
-/
import CircularLog.Report
import CircularLog.Text.Quoted

namespace CircularLog

inductive Refusal where
  /-- a ring of fewer than two bytes holds no record -/
  | capacityTooSmall (capacity : Nat)
  /-- the control block and this capacity together are longer than a number can say -/
  | capacityOverflow
  /-- a file of this size has no room for two bytes after the control block -/
  | fileSizeTooSmall (size : Nat)
  | unknownMode (mode : String)
  | opening (cause : Cause)
  | system (offset : Option Nat) (cause : Cause)
  /-- a file that ends within its control block or right after it -/
  | fileTooShort (size : Nat)
  | blockTooShort
  | badMagic
  | startOutOfRange (offset : Nat)
  | stopOutOfRange (offset : Nat)
  | transferTooLong (length : Nat)
  | undecodableLength (offset : Nat) (e : Varint.Error)
  | frameTooLong (offset payload : Nat)
  | bufferTooSmall (offset payload : Nat)
  | recordTooLarge (capacity payload : Nat)
  | nothingToEvict
  | chunkTooLong (length remaining total : Nat)
  | unfinished (remaining total : Nat)
  /-- an append was asked of a handle that only reads -/
  | readOnly
  /-- no file to append to, and no size to make one of -/
  | sizeNotGiven
  | input (cause : Cause)
  | output (cause : Cause)
  /-- a path that is not text cannot be shown in a JSON text -/
  | pathNotText
deriving DecidableEq, Repr

namespace Refusal

/-- what the caller is told -/
def report (path : Option Path) : Refusal → Report
  | .capacityTooSmall capacity =>
    { kind := .usage, message := "capacity must be at least 2 bytes", path, size := capacity }
  | .capacityOverflow => { kind := .usage, message := "capacity overflows file size" }
  | .fileSizeTooSmall size =>
    { kind := .usage, message := "file size must exceed the control block by at least 2 bytes", size }
  | .unknownMode mode =>
    { kind := .usage, message := "unknown open mode " ++ Quoted.encode mode ++ " (expected r or a)" }
  | .opening cause => { kind := .ofOpening cause, path, cause }
  | .system offset cause => { kind := .io, path, offset, cause }
  | .fileTooShort size => { kind := .invalidFormat, message := "file too small for a ring", path, size }
  | .blockTooShort => { kind := .invalidFormat, message := "control block too small", path }
  | .badMagic => { kind := .invalidFormat, message := "bad magic", path }
  | .startOutOfRange offset => { kind := .invalidFormat, message := "start offset out of range", path, offset }
  | .stopOutOfRange offset => { kind := .invalidFormat, message := "end offset out of range", path, offset }
  | .transferTooLong length =>
    { kind := .invalidState, message := "transfer longer than ring capacity", path, size := length }
  | .undecodableLength offset e =>
    { kind := .corruptFrame, message := "undecodable length prefix", path, offset, cause := some (.decoding e) }
  | .frameTooLong offset payload =>
    { kind := .corruptFrame, message := "frame extends past end offset", path, offset, size := payload }
  | .bufferTooSmall offset payload =>
    { kind := .bufferTooSmall, message := "destination buffer too small for record", path, offset, size := payload }
  | .recordTooLarge capacity payload =>
    { kind := .recordTooLarge, message := "record cannot fit in a ring of " ++ toString capacity ++ " bytes", path
      size := payload }
  | .nothingToEvict => { kind := .invalidState, message := "nothing left to evict", path }
  | .chunkTooLong length remaining total =>
    { kind := .invalidState
      message := "chunk of " ++ toString length ++ " bytes exceeds the " ++ toString remaining
        ++ " bytes left in the declared record"
      path, size := total }
  | .unfinished remaining total =>
    { kind := .invalidState
      message := "record finished with " ++ toString remaining ++ " of " ++ toString total ++ " declared bytes missing"
      path, size := total }
  | .readOnly => { kind := .invalidState, message := "handle was opened read-only", path }
  | .sizeNotGiven => { kind := .usage, message := "file does not exist and --size was not specified", path }
  | .input cause => { kind := .io, message := "reading stdin", cause }
  | .output cause => { kind := .io, message := "writing stdout", path, cause }
  | .pathNotText =>
    { kind := .io, message := "encoding stat json"
      cause := some (.described .other "path contains invalid UTF-8 characters") }

end Refusal

end CircularLog
