/-
What a handle on a ring may do: only read, or append as well. A mode is given by its name or by the first letter of it.
-/
import CircularLog.Outcome

namespace CircularLog

inductive Access where
  | read
  | append
deriving DecidableEq, Repr

namespace Access

def name : Access → String
  | .read => "read"
  | .append => "append"

def ofText (text : String) : Outcome Access :=
  if text = "r" ∨ text = "read" then .ok .read
  else if text = "a" ∨ text = "append" then .ok .append
  else refuse (.unknownMode text)

end Access

end CircularLog
