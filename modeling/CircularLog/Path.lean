/-
File names are byte strings. They need not be text; `display` shows them as text all the same.
-/
import CircularLog.Text.Utf8

namespace CircularLog

structure Path where
  bytes : Bytes
deriving DecidableEq, Repr

namespace Path

def ofText (text : String) : Path := ⟨Utf8.encode text⟩

def display (path : Path) : String := Utf8.display path.bytes

end Path

end CircularLog
