/-
What a ring's usage looks like, as four lines of text or as one line of JSON. The text counts the bytes of the circle
alone. JSON takes only a path that is text.
-/
import CircularLog.Ring.Basic
import CircularLog.Text.JsonString

namespace CircularLog.Usage

def lines (usage : Usage) (path : Path) : String :=
  "File: " ++ path.display ++ "\n"
    ++ "Size: " ++ toString usage.capacity ++ " bytes\n"
    ++ "Used: " ++ toString usage.used ++ " bytes\n"
    ++ "Free: " ++ toString usage.available ++ " bytes\n"

/-- the names and numbers of the usage, in the order in which they are shown -/
def fields (usage : Usage) : List (String × Nat) :=
  [("file_size", usage.fileSize), ("capacity", usage.capacity), ("used", usage.used), ("available", usage.available),
    ("start_offset", usage.start), ("end_offset", usage.stop), ("flags", usage.flags)]

def json (usage : Usage) (path : Path) : Outcome String :=
  match Utf8.text? path.bytes with
  | none => refuse .pathNotText
  | some text =>
    let members := usage.fields.map fun (name, n) => JsonString.encode name ++ ":" ++ toString n
    .ok ("\x7b" ++ ",".intercalate ((JsonString.encode "path" ++ ":" ++ JsonString.encode text) :: members) ++ "\x7d")

end CircularLog.Usage
