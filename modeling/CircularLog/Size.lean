/-
Sizes as they are written on the command line: decimal digits and then at most one letter for a unit, a power of 1024.
-/
import CircularLog.Outcome

namespace CircularLog.Size

/-- the number that the decimal digits write, or the first one that 64 bits do not hold if it is not less -/
def value (digits : List Char) : Nat :=
  digits.foldl (fun n c => min (10 * n + (c.toNat - '0'.toNat)) Word.bound) 0

def multiplier? : List Char → Option Nat
  | [] | ['b'] | ['B'] => some 1
  | ['k'] | ['K'] => some 1024
  | ['m'] | ['M'] => some (1024 * 1024)
  | ['g'] | ['G'] => some (1024 * 1024 * 1024)
  | _ => none

/-- the size, unless the text is no size, or the size is zero or more than 64 bits hold -/
def parse (text : String) : Option Nat :=
  let digits := text.toList.takeWhile Char.isDigit
  match multiplier? (text.toList.dropWhile Char.isDigit) with
  | none => none
  | some multiplier =>
    let size := value digits * multiplier
    if 0 < size ∧ size < Word.bound then some size else none

end CircularLog.Size
