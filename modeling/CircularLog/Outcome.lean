/-
What an operation comes to: a value, a refusal that its caller is told of, or a fault, where there is no answer at all.

Offsets and lengths are whole numbers below `2 ^ 64`. `Word` holds the arithmetic on them that can leave that range or
divide by zero, so that an operation which never comes to a fault never leaves it.
-/
import CircularLog.Refusal

namespace CircularLog

inductive Fault where
  /-- a sum that 64 bits do not hold -/
  | overflow
  /-- a difference below zero -/
  | underflow
  /-- a remainder of a division by zero -/
  | zeroModulus
  /-- a buffer that is too short to take a value, or longer than any buffer can be -/
  | outOfRange
  /-- the steps come round to where they began, and none of them is the last -/
  | endless
deriving DecidableEq, Repr

/-- why there is no value -/
inductive Stop where
  | refused (r : Refusal)
  | fault (f : Fault)
deriving DecidableEq, Repr

abbrev Outcome (α : Type) := Except Stop α

def refuse {α : Type} (r : Refusal) : Outcome α := .error (.refused r)

namespace Word

/-- `2 ^ 64` -/
def bound : Nat := 0x10000000000000000

def add (a b : Nat) : Outcome Nat := if a + b < bound then .ok (a + b) else .error (.fault .overflow)

def sub (a b : Nat) : Outcome Nat := if b ≤ a then .ok (a - b) else .error (.fault .underflow)

def mod (a b : Nat) : Outcome Nat := if b = 0 then .error (.fault .zeroModulus) else .ok (a % b)

theorem add_eq_ok {a b : Nat} (h : a + b < bound) : add a b = .ok (a + b) := if_pos h

theorem sub_eq_ok {a b : Nat} (h : b ≤ a) : sub a b = .ok (a - b) := if_pos h

theorem mod_eq_ok {a b : Nat} (h : b ≠ 0) : mod a b = .ok (a % b) := if_neg h

end Word

end CircularLog
