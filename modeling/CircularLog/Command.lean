/-
The three things that the command line does with a ring file: it prints every record with a line break behind it,
appends every line of the input as a record, or shows the usage.

The input may break off after some bytes, and the output may take only so many. What was done before that stays done.
-/
import CircularLog.Handle
import CircularLog.Ring.Append
import CircularLog.Ring.Read
import CircularLog.Summary

namespace CircularLog

/-- the bytes of a reader, and the error that follows them if they are not all; the error is the one that reading a line
finally returns, since a call that is only interrupted is made again -/
structure Input where
  bytes : Bytes
  broken : Option Cause := none
deriving DecidableEq, Repr

/-- a writer: what it has taken, how much it takes before it fails, and whether it fails when it is flushed; the failure
is the one that writing all of some bytes finally returns, since a call that is only interrupted is made again -/
structure Sink where
  written : Array UInt8 := #[]
  limit : Option (Nat × Cause) := none
  flushFailure : Option Cause := none
deriving DecidableEq, Repr

namespace Sink

/-- takes the bytes, or as many as it can before it fails -/
def write (sink : Sink) (data : Bytes) : Sink × Outcome Unit :=
  match sink.limit with
  | none => ({ sink with written := sink.written ++ data.toArray }, .ok ())
  | some (limit, cause) =>
    let room := limit - sink.written.size
    if data.length ≤ room then ({ sink with written := sink.written ++ data.toArray }, .ok ())
    else ({ sink with written := sink.written ++ (data.take room).toArray }, refuse (.output cause))

def flush (sink : Sink) : Sink × Outcome Unit :=
  match sink.flushFailure with
  | none => (sink, .ok ())
  | some cause => (sink, refuse (.output cause))

end Sink

namespace Command

inductive Mode where
  | read
  | append
  | stat
deriving DecidableEq, Repr

end Command

structure Command where
  mode : Command.Mode
  path : Path
  /-- the size of the file, if it has to be made -/
  size : Option Nat := none
  /-- whether the usage is shown as JSON -/
  json : Bool := false
deriving DecidableEq, Repr

namespace Command

def lineBreak : UInt8 := 0x0A

/-- writes a record, and then a line break -/
def writeLine (sink : Sink) (record : Bytes) : Sink × Outcome Unit :=
  match sink.write record with
  | (sink, .error stop) => (sink, .error stop)
  | (sink, .ok ()) => sink.write [lineBreak]

/-- writes the next records, at most `fuel` of them, each with a line break -/
def printWithin : Nat → Ring → Sink → Sink × Outcome Unit
  | 0, _, sink => (sink, .error (.fault .endless))
  | fuel + 1, r, sink =>
    match r.record with
    | .error stop => (sink, .error stop)
    | .ok (_, none) => sink.flush
    | .ok (r, some payload) =>
      match writeLine sink payload with
      | (sink, .error stop) => (sink, .error stop)
      | (sink, .ok ()) => printWithin fuel r sink

/-- writes all records; the cursor has `capacity` places to be at and each record fills the writer by a byte, and so the
records or the writer end by then or never -/
def print (r : Ring) (sink : Sink) : Sink × Outcome Unit :=
  printWithin (r.capacity + sink.limit.elim 0 Prod.fst + 2) r sink

/-- appends each line of the input, of which `line` was read already, last byte first; what follows the last line break
is a line too, unless it is empty or the input breaks off there -/
def appendLines (broken : Option Cause) : Ring → Bytes → Bytes → Ring × Outcome Unit
  | r, line, [] =>
    match broken with
    | some cause => (r, refuse (.input cause))
    | none => if line.isEmpty then (r, .ok ()) else r.append line.reverse
  | r, line, b :: rest =>
    if b = lineBreak then
      match r.append line.reverse with
      | (r, .error stop) => (r, .error stop)
      | (r, .ok ()) => appendLines broken r [] rest
    else appendLines broken r (b :: line) rest

/-- the ring to append to, which is made if its file is missing and a size was given -/
def openOrCreate (command : Command) (fs : FileSystem) : FileSystem × Outcome Handle :=
  match Handle.openRing fs command.path .append with
  | .ok handle => (fs, .ok handle)
  | .error (.refused (.opening cause)) =>
    if cause.isNotFound then
      match command.size.map Handle.capacityOfFileSize with
      | none => (fs, refuse .sizeNotGiven)
      | some (.error stop) => (fs, .error stop)
      | some (.ok capacity) => Handle.create fs command.path capacity
    else (fs, refuse (.opening cause))
  | .error stop => (fs, .error stop)

def runRead (command : Command) (fs : FileSystem) (sink : Sink) : Sink × Outcome Unit :=
  match Handle.openRing fs command.path .read with
  | .error stop => (sink, .error stop)
  | .ok handle => print (handle.ring fs) sink

def runAppend (command : Command) (fs : FileSystem) (input : Input) : FileSystem × Outcome Unit :=
  match command.openOrCreate fs with
  | (fs, .error stop) => (fs, .error stop)
  | (fs, .ok handle) =>
    let (r, result) := appendLines input.broken (handle.ring fs) [] input.bytes
    ((r.save fs handle).1, result)

/-- the usage of the ring as it is shown -/
def summary (command : Command) (fs : FileSystem) : Outcome String := do
  let handle ← Handle.openRing fs command.path .read
  let usage ← (handle.ring fs).usage
  if command.json then return (← usage.json command.path) ++ "\n" else return usage.lines command.path

def runStat (command : Command) (fs : FileSystem) (sink : Sink) : Sink × Outcome Unit :=
  match command.summary fs with
  | .error stop => (sink, .error stop)
  | .ok text => sink.write (Utf8.encode text)

def run (command : Command) (fs : FileSystem) (input : Input) (sink : Sink) : FileSystem × Sink × Outcome Unit :=
  match command.mode with
  | .read => (fs, command.runRead fs sink)
  | .append =>
    let (fs, result) := command.runAppend fs input
    (fs, sink, result)
  | .stat => (fs, command.runStat fs sink)

end Command

end CircularLog
