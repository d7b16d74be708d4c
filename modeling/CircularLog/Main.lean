/-
The command line: takes the one file that the arguments name into a file system, runs the program on it, and stores the
file if the program changed it.
-/
import CircularLog.Program

namespace CircularLog.Program

/-- the number that the operating system gave an error; it may come with its sign reversed, modulo `2 ^ 32` -/
def errorNumber : IO.Error → Nat
  | .alreadyExists _ n _ | .otherError n _ | .resourceBusy n _ | .resourceVanished n _ | .unsupportedOperation n _
  | .hardwareFault n _ | .unsatisfiedConstraints n _ | .illegalOperation n _ | .protocolError n _ | .timeExpired n _
  | .interrupted _ n _ | .noFileOrDirectory _ n _ | .invalidArgument _ n _ | .permissionDenied _ n _
  | .resourceExhausted _ n _ | .inappropriateType _ n _ | .noSuchThing _ n _ => min n.toNat (0x100000000 - n.toNat)
  | .unexpectedEof | .userError _ => 0

def causeOf (e : IO.Error) : Cause :=
  match SystemError.ofNumber? (errorNumber e) with
  | some system => .system system
  | none => .described .other (toString e)

/-- the file system as far as the path leads into it, or why the file cannot be read -/
def load (path : Path) : IO (Except Cause FileSystem) := do
  try
    let bytes ← IO.FS.readBinFile path.display
    return .ok (.around path (some (.file 0)) ⟨bytes⟩)
  catch e =>
    match causeOf e with
    | .system .notFound => return .ok (.around path none .empty)
    | .system .isDirectory => return .ok (.around path (some .directory) .empty)
    | cause => return .error cause

/-- stores the file if its bytes are others than before, or says why that cannot be done -/
def store (path : Path) (before after : FileSystem) : IO (Except Cause Unit) := do
  match before.read path, after.read path with
  | old, .ok image =>
    if old.toOption = some image then return .ok ()
    try
      IO.FS.writeBinFile path.display image.bytes
      return .ok ()
    catch e => return .error (causeOf e)
  | _, .error _ => return .ok ()

partial def readAll (stream : IO.FS.Stream) (taken : ByteArray) : IO ByteArray := do
  let chunk ← stream.read 65536
  if chunk.isEmpty then return taken else readAll stream (taken ++ chunk)

/-- puts out what the program leaves, and gives its exit code -/
def leave (exit : Exit) : IO UInt32 := do
  let stdout ← IO.getStdout
  stdout.write ⟨exit.output.toArray⟩
  stdout.flush
  match exit.message with
  | some message => IO.eprintln message
  | none => pure ()
  return exit.code.toUInt32

/-- runs a command on the one file that it names -/
def runOnDisk (arguments : List Bytes) (command : Command) : IO UInt32 := do
  let refused (cause : Cause) : IO UInt32 := leave (exit command.path {} (refuse (.opening cause)))
  match ← load command.path with
  | .error cause => refused cause
  | .ok before =>
    let input ← match command.mode with
      | .append => readAll (← IO.getStdin) .empty
      | _ => pure .empty
    let (after, exit) := run arguments before input.data.toList
    match ← store command.path before after with
    | .error cause => refused cause
    | .ok () => leave exit

end CircularLog.Program

def main (args : List String) : IO UInt32 := do
  let arguments := args.map CircularLog.Utf8.encode
  match CircularLog.Arguments.parse arguments with
  | .run command => CircularLog.Program.runOnDisk arguments command
  | _ => CircularLog.Program.leave (CircularLog.Program.run arguments {} []).2
