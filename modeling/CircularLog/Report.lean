/-
What a caller is told of a failure: a kind to branch on, and as much of a message, a path, an offset, a size and a cause
as is known. `text` is the one line that shows all of it. A buffer that was too small is the one kind after which the
same call may be tried again.
-/
import CircularLog.Cause
import CircularLog.Path

namespace CircularLog

namespace Report

inductive Kind where
  | usage
  | notFound
  | alreadyExists
  | invalidFormat
  | io
  | recordTooLarge
  | bufferTooSmall
  | corruptFrame
  | invalidState
deriving DecidableEq, Repr

def Kind.name : Kind → String
  | .usage => "Usage"
  | .notFound => "NotFound"
  | .alreadyExists => "AlreadyExists"
  | .invalidFormat => "InvalidFormat"
  | .io => "Io"
  | .recordTooLarge => "RecordTooLarge"
  | .bufferTooSmall => "BufferTooSmall"
  | .corruptFrame => "CorruptFrame"
  | .invalidState => "InvalidState"

/-- the kind under which a reader or writer of bytes passes the failure on -/
def Kind.streamKind : Kind → StreamKind
  | .notFound => .notFound
  | .alreadyExists => .alreadyExists
  | .usage | .invalidState => .invalidInput
  | .invalidFormat | .corruptFrame => .invalidData
  | .io | .recordTooLarge | .bufferTooSmall => .other

/-- a missing file and one that is there already have kinds of their own -/
def Kind.ofOpening (cause : Cause) : Kind :=
  if cause.isNotFound then .notFound else if cause.isAlreadyExists then .alreadyExists else .io

end Report

structure Report where
  kind : Report.Kind
  message : Option String := none
  path : Option Path := none
  offset : Option Nat := none
  size : Option Nat := none
  cause : Option Cause := none
deriving DecidableEq, Repr

namespace Report

/-- the number that the operating system gave, if the cause is its error -/
def systemNumber? (r : Report) : Option Nat := r.cause.bind Cause.number?

/-- nothing was changed, and the call may be repeated with a larger buffer -/
def recoverable (r : Report) : Bool := r.kind == .bufferTooSmall

/-- kind, message and cause after colons, then what is known of place and size in brackets -/
def text (r : Report) : String :=
  r.kind.name
    ++ (r.message.elim "" (": " ++ ·))
    ++ (r.cause.elim "" (": " ++ ·.text))
    ++ (r.path.elim "" (" (path: " ++ ·.display ++ ")"))
    ++ (r.offset.elim "" (" (offset: " ++ toString · ++ ")"))
    ++ (r.size.elim "" (" (size: " ++ toString · ++ ")"))

end Report

end CircularLog
