/-
Places on a circle of `capacity` bytes. `distance` is the way forward from one place to another, `advance` a step
forward.

- `distance_eq_ok`: between places on the circle the distance is their difference modulo the capacity.
- `advance_eq_ok`: a step is a sum modulo the capacity.
-/
import CircularLog.Outcome

namespace CircularLog.Circle

def distance (capacity start stop : Nat) : Outcome Nat :=
  if start ≤ stop then .ok (stop - start) else Word.sub capacity (start - stop)

def advance (capacity offset count : Nat) : Outcome Nat := do
  Word.mod (← Word.add offset count) capacity

theorem distance_eq_ok {capacity start stop : Nat} (hstart : start < capacity) (hstop : stop < capacity) :
    distance capacity start stop = .ok ((stop + capacity - start) % capacity) := by
  unfold distance
  split
  · rename_i hle
    have hsum : stop + capacity - start = stop - start + capacity := by omega
    rw [hsum, Nat.add_mod_right, Nat.mod_eq_of_lt (by omega)]
  · rename_i hlt
    rw [Word.sub_eq_ok (by omega), Nat.mod_eq_of_lt (by omega)]
    congr 1
    omega

theorem advance_eq_ok {capacity offset count : Nat} (hpos : 0 < capacity) (hsum : offset + count < Word.bound) :
    advance capacity offset count = .ok ((offset + count) % capacity) := by
  rw [advance, Word.add_eq_ok hsum]
  exact Word.mod_eq_ok (by omega)

end CircularLog.Circle
