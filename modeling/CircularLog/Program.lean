/-
The whole program on a file system: arguments and input in, the files afterwards and what the program puts out. It exits
with 0 if it did what it was asked for, and with 1 after a misuse or a refusal, which it reports in one message.
-/
import CircularLog.Arguments

namespace CircularLog.Program

def name : String := "ringfile"

def versionText : String := name ++ " 0.1.0\n"

def helpText : String :=
  "Append to, read, and inspect fixed-size circular record files\n\n"
    ++ "Usage: ringfile [OPTIONS] <FILE>\n\n"
    ++ "Arguments:\n"
    ++ "  <FILE>  Ring file path\n\n"
    ++ "Options:\n"
    ++ "  -v, --verbose      Log engine activity to stderr\n"
    ++ "  -s, --size <SIZE>  Total file size when creating in append mode (units: b, k, m, g)\n"
    ++ "  -S, --stat         Report capacity and usage\n"
    ++ "  -a, --append       Append each stdin line as a record\n"
    ++ "      --json         Emit the stat report as JSON\n"
    ++ "  -h, --help         Print help\n"
    ++ "  -V, --version      Print version\n\n"
    ++ "EXAMPLES\n"
    ++ "  $ printf 'a\\nb\\n' | ringfile --append --size 1m events.ring\n"
    ++ "  $ ringfile events.ring                # print every retained record\n"
    ++ "  $ ringfile --stat events.ring         # capacity and usage\n\n"
    ++ "Once the file is full, the oldest records are discarded to make room.\n"

structure Exit where
  code : Nat
  output : Bytes := []
  /-- the report of a refusal -/
  message : Option String := none
deriving DecidableEq, Repr

/-- the exit after a command; one that comes to a fault ends without a report -/
def exit (path : Path) (sink : Sink) : Outcome Unit → Exit
  | .ok () => { code := 0, output := sink.written.toList }
  | .error (.refused r) =>
    { code := 1, output := sink.written.toList, message := some (name ++ ": " ++ (r.report (some path)).text) }
  | .error (.fault _) => { code := 101, output := sink.written.toList }

def run (arguments : List Bytes) (fs : FileSystem) (input : Bytes) : FileSystem × Exit :=
  match Arguments.parse arguments with
  | .misuse => (fs, { code := 1 })
  | .help => (fs, { code := 0, output := Utf8.encode helpText })
  | .version => (fs, { code := 0, output := Utf8.encode versionText })
  | .run command =>
    let (fs, sink, result) := command.run fs { bytes := input } {}
    (fs, exit command.path sink result)

end CircularLog.Program
