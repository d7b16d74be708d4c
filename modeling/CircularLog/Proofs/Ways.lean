/-
Steps and distances on a circle undo one another. A distance is found by asking which of two places comes first, a step
by a remainder; what ties them together holds wherever the circle is closed between the places, and no sum or difference
on the way there leaves 64 bits.

- `Circle.advance_eq_mod`: a step of less than a turn, on every circle of at most `2 ^ 63` bytes.
- `Circle.way_add_mod`: the distance to where a step of any length ends.
- `Circle.way_lt_iff`: nearer than a length are the places of as many bytes, and no others.
- `Ring.evict_of_oldest`: which cursor moves when the oldest record is dropped.
- `steps_undo_distances`: all of it.
-/
import CircularLog.Proofs.Step

namespace CircularLog

namespace Circle

section Laws

variable {capacity start stop count length : Nat}

theorem advance_eq_mod (hcapacity : capacity ≤ 2 ^ 63) (hstart : start < capacity) (hcount : count < capacity) :
    advance capacity start count = .ok ((start + count) % capacity) := by
  have hbound : Word.bound = 2 ^ 63 + 2 ^ 63 := by norm_num [Word.bound]
  apply advance_eq_ok
  · omega
  · omega

/-- full turns do not count -/
theorem way_add_mod (hstart : start < capacity) (count : Nat) :
    way capacity start ((start + count) % capacity) = count % capacity := by
  have hless : count % capacity < capacity := Nat.mod_lt _ (by omega)
  calc way capacity start ((start + count) % capacity)
      = way capacity start ((start + count % capacity) % capacity) := by rw [Nat.add_mod_mod]
    _ = count % capacity := way_add hstart hless

theorem way_lt_iff (hstart : start < capacity) (hstop : stop < capacity) :
    way capacity start stop < length ↔ ∃ i < length, stop = (start + i) % capacity := by
  constructor
  · intro hnear
    exact ⟨way capacity start stop, hnear, (add_way hstart hstop).symm⟩
  · rintro ⟨i, hi, rfl⟩
    rw [way_add_mod hstart]
    exact (Nat.mod_le i capacity).trans_lt hi

end Laws

/-- what steps and distances on a circle of this capacity have to do with one another -/
structure Inverse (capacity : Nat) : Prop where
  /-- it is less than a turn from one place to another, and a step of that length leads there -/
  there : ∀ start stop, start < capacity → stop < capacity →
    ∃ d, distance capacity start stop = .ok d ∧ d < capacity ∧ advance capacity start d = .ok stop
  /-- and where a step of less than a turn ends is as far away as the step is long -/
  back : ∀ start d, start < capacity → d < capacity →
    ∃ stop, advance capacity start d = .ok stop ∧ stop < capacity ∧ distance capacity start stop = .ok d
  /-- a step that does not go past a place comes nearer to it by its length -/
  nearer : ∀ start stop d whole, start < capacity → stop < capacity →
    distance capacity start stop = .ok whole → d ≤ whole →
    ∃ place, advance capacity start d = .ok place ∧ place < capacity ∧ distance capacity place stop = .ok (whole - d)
  /-- nearer than a length are the places of as many bytes -/
  within : ∀ start place length, start < capacity → place < capacity →
    ∃ d, distance capacity start place = .ok d ∧ (d < length ↔ ∃ i < length, place = (start + i) % capacity)
  /-- so that a record which is dropped takes a cursor along exactly if the cursor is at one of its bytes -/
  dropped : ∀ (r : Ring) frame next, r.capacity = capacity → r.cursor < capacity → frame.offset < capacity →
    r.oldest = .ok (frame, next) → ∃ after, r.evict = (after, .ok ())
      ∧ ((∃ i < frame.length, r.cursor = (frame.offset + i) % capacity) → after.cursor = next)
      ∧ ((¬∃ i < frame.length, r.cursor = (frame.offset + i) % capacity) → after.cursor = r.cursor)

end Circle

namespace Ring

variable {r : Ring} {frame : Frame} {next : Nat}

/-- the record goes, whatever the data hold, and with it a cursor that is less than a frame away from its beginning -/
theorem evict_of_oldest (hcursor : r.cursor < r.capacity) (hoffset : frame.offset < r.capacity)
    (holdest : r.oldest = .ok (frame, next)) :
    r.evict = ({ r with
      image := r.image.setStart next
      cursor := if Circle.way r.capacity frame.offset r.cursor < frame.length then next else r.cursor }, .ok ()) := by
  unfold evict
  rw [holdest]
  simp only [Circle.distance_eq_way hoffset hcursor]

end Ring

/-- **Steps and distances undo one another.** On every circle of at most `2 ^ 63` bytes and for all places on it. -/
theorem steps_undo_distances {capacity : Nat} (hpos : 0 < capacity) (hcapacity : capacity ≤ 2 ^ 63) :
    Circle.Inverse capacity where
  there := by
    intro start stop hstart hstop
    have hway : Circle.way capacity start stop < capacity := Circle.way_lt hstart
    refine ⟨Circle.way capacity start stop, Circle.distance_eq_way hstart hstop, hway, ?_⟩
    rw [Circle.advance_eq_mod hcapacity hstart hway, Circle.add_way hstart hstop]
  back := by
    intro start d hstart hd
    have hplace : (start + d) % capacity < capacity := Nat.mod_lt _ hpos
    refine ⟨(start + d) % capacity, Circle.advance_eq_mod hcapacity hstart hd, hplace, ?_⟩
    rw [Circle.distance_eq_way hstart hplace, Circle.way_add hstart hd]
  nearer := by
    intro start stop d whole hstart hstop hwhole hd
    rw [Circle.distance_eq_way hstart hstop] at hwhole
    obtain rfl := Except.ok.inj hwhole
    have hway : Circle.way capacity start stop < capacity := Circle.way_lt hstart
    have hplace : (start + d) % capacity < capacity := Nat.mod_lt _ hpos
    refine ⟨(start + d) % capacity, Circle.advance_eq_mod hcapacity hstart (by omega), hplace, ?_⟩
    rw [Circle.distance_eq_way hplace hstop, Circle.way_add_left hstart hstop hd]
  within := by
    intro start place length hstart hplace
    exact ⟨Circle.way capacity start place, Circle.distance_eq_way hstart hplace, Circle.way_lt_iff hstart hplace⟩
  dropped := by
    rintro r frame next rfl hcursor hoffset holdest
    refine ⟨_, Ring.evict_of_oldest hcursor hoffset holdest, ?_, ?_⟩
    · intro hwithin
      exact if_pos ((Circle.way_lt_iff hoffset hcursor).2 hwithin)
    · intro hbeside
      exact if_neg fun hnear => hbeside ((Circle.way_lt_iff hoffset hcursor).1 hnear)

/-- the widest circle, from its last place over the end -/
theorem steps_undo_distances_widest :
    0 < 2 ^ 63 ∧ 2 ^ 63 ≤ 2 ^ 63 ∧ Circle.Inverse (2 ^ 63)
      ∧ Circle.distance (2 ^ 63) (2 ^ 63 - 1) (2 ^ 63 - 2) = .ok (2 ^ 63 - 1)
      ∧ Circle.advance (2 ^ 63) (2 ^ 63 - 1) (2 ^ 63 - 1) = .ok (2 ^ 63 - 2) := by
  have hpos : 0 < 2 ^ 63 := by decide
  obtain ⟨d, hdistance, -, hback⟩ :=
    (steps_undo_distances hpos le_rfl).there (2 ^ 63 - 1) (2 ^ 63 - 2) (by decide) (by decide)
  have hwhole : Circle.distance (2 ^ 63) (2 ^ 63 - 1) (2 ^ 63 - 2) = .ok (2 ^ 63 - 1) := by decide
  obtain rfl := Except.ok.inj (hwhole.symm.trans hdistance)
  exact ⟨hpos, le_rfl, steps_undo_distances hpos le_rfl, hwhole, hback⟩

end CircularLog
