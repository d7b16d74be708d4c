/-
Where a stretch of the circle lies in the file: one segment, or two when the stretch runs over the end of the data and
goes on at their beginning. The data follow the control block.
-/
import CircularLog.Outcome

namespace CircularLog

/-- a stretch of the file -/
structure Segment where
  position : Nat
  length : Nat
deriving DecidableEq, Repr

structure Span where
  first : Segment
  second : Option Segment
deriving DecidableEq, Repr

namespace Span

/-- the place in the file where the data begin -/
def base : Nat := 24

def segments (span : Span) : List Segment := span.first :: span.second.toList

/-- the segments of `length` bytes from `offset`, taken modulo the capacity; the length is at most the capacity -/
def split (offset length capacity : Nat) : Outcome Span := do
  let place ← Word.mod offset capacity
  let position ← Word.add base place
  let room := capacity - place
  if length ≤ room then pure ⟨⟨position, length⟩, none⟩
  else pure ⟨⟨position, room⟩, some ⟨base, length - room⟩⟩

theorem split_eq_ok {offset length capacity : Nat} (hpos : 0 < capacity) (hbound : base + capacity ≤ Word.bound) :
    split offset length capacity = .ok
      (if length ≤ capacity - offset % capacity then ⟨⟨base + offset % capacity, length⟩, none⟩
       else ⟨⟨base + offset % capacity, capacity - offset % capacity⟩,
        some ⟨base, length - (capacity - offset % capacity)⟩⟩) := by
  have hplace : offset % capacity < capacity := Nat.mod_lt _ hpos
  have hmod : Word.mod offset capacity = .ok (offset % capacity) := Word.mod_eq_ok (by omega)
  have hadd : Word.add base (offset % capacity) = .ok (base + offset % capacity) := Word.add_eq_ok (by omega)
  simp only [split, hmod, hadd, bind, Except.bind]
  split <;> rfl

end Span

end CircularLog
