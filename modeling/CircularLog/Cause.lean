/-
What lies beneath a reported error: an error of the operating system, with its number; a length prefix that cannot be
read; or an error of a reader or writer that has a kind and a text and no number.
-/
import CircularLog.Varint

namespace CircularLog

inductive SystemError where
  | notFound
  | inputOutput
  | permissionDenied
  | alreadyExists
  | notDirectory
  | isDirectory
  | invalidArgument
  | noSpace
  | nameTooLong
deriving DecidableEq, Repr

namespace SystemError

def number : SystemError → Nat
  | .notFound => 2
  | .inputOutput => 5
  | .permissionDenied => 13
  | .alreadyExists => 17
  | .notDirectory => 20
  | .isDirectory => 21
  | .invalidArgument => 22
  | .noSpace => 28
  | .nameTooLong => 36

def description : SystemError → String
  | .notFound => "No such file or directory"
  | .inputOutput => "Input/output error"
  | .permissionDenied => "Permission denied"
  | .alreadyExists => "File exists"
  | .notDirectory => "Not a directory"
  | .isDirectory => "Is a directory"
  | .invalidArgument => "Invalid argument"
  | .noSpace => "No space left on device"
  | .nameTooLong => "File name too long"

/-- the description with the number after it -/
def text (e : SystemError) : String := e.description ++ " (os error " ++ toString e.number ++ ")"

def all : List SystemError :=
  [.notFound, .inputOutput, .permissionDenied, .alreadyExists, .notDirectory, .isDirectory, .invalidArgument, .noSpace,
    .nameTooLong]

def ofNumber? (n : Nat) : Option SystemError := all.find? (·.number == n)

end SystemError

/-- the kinds of error that a reader or a writer meets -/
inductive StreamKind where
  | notFound
  | permissionDenied
  | connectionRefused
  | connectionReset
  | connectionAborted
  | notConnected
  | addressInUse
  | addressNotAvailable
  | brokenPipe
  | alreadyExists
  | wouldBlock
  | notDirectory
  | isDirectory
  | invalidInput
  | invalidData
  | timedOut
  | writeZero
  | noSpace
  | interrupted
  | unsupported
  | unexpectedEnd
  | outOfMemory
  | other
deriving DecidableEq, Repr

/-- the text of an error that is nothing but its kind -/
def StreamKind.text : StreamKind → String
  | .notFound => "entity not found"
  | .permissionDenied => "permission denied"
  | .connectionRefused => "connection refused"
  | .connectionReset => "connection reset"
  | .connectionAborted => "connection aborted"
  | .notConnected => "not connected"
  | .addressInUse => "address in use"
  | .addressNotAvailable => "address not available"
  | .brokenPipe => "broken pipe"
  | .alreadyExists => "entity already exists"
  | .wouldBlock => "operation would block"
  | .notDirectory => "not a directory"
  | .isDirectory => "is a directory"
  | .invalidInput => "invalid input parameter"
  | .invalidData => "invalid data"
  | .timedOut => "timed out"
  | .writeZero => "write zero"
  | .noSpace => "no storage space"
  | .interrupted => "operation interrupted"
  | .unsupported => "unsupported"
  | .unexpectedEnd => "unexpected end of file"
  | .outOfMemory => "out of memory"
  | .other => "other error"

inductive Cause where
  | system (e : SystemError)
  | decoding (e : Varint.Error)
  | described (kind : StreamKind) (text : String)
  | plain (kind : StreamKind)
deriving DecidableEq, Repr

namespace Cause

def text : Cause → String
  | .system e => e.text
  | .decoding e => e.text
  | .described _ text => text
  | .plain kind => kind.text

/-- the number of an error of the operating system -/
def number? : Cause → Option Nat
  | .system e => some e.number
  | _ => none

/-- whether the error says that a file is missing -/
def isNotFound : Cause → Bool
  | .system .notFound | .described .notFound _ | .plain .notFound => true
  | _ => false

/-- whether the error says that a file is there already -/
def isAlreadyExists : Cause → Bool
  | .system .alreadyExists | .described .alreadyExists _ | .plain .alreadyExists => true
  | _ => false

/-- the file ended before as many bytes as were asked for -/
def endOfFile : Cause := .described .unexpectedEnd "failed to fill whole buffer"

/-- a file name holds the byte zero -/
def zeroInName : Cause := .described .invalidInput "file name contained an unexpected NUL byte"

/-- a file length is beyond what the system can name -/
def lengthOutOfRange : Cause := .described .invalidInput "number too large to fit in target type"

end Cause

end CircularLog
