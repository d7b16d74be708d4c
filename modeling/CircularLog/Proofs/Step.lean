/-
What one step of a ring does, whatever its data hold. `Image.Opens` is what a file has to be for a handle to be opened
on it, and `Ring.Sound` adds a cursor on the circle. On a sound ring no sum leaves 64 bits and no transfer is refused,
so that each operation comes down to one equation without `Outcome` arithmetic.

- `Circle.way`: the distance of two places as a number, and its laws.
- `Ring.frameAt_eq`, `Ring.frameAt_ok`: how a frame is found, and what is true of each frame that is found.
- `Ring.record_eq`, `Ring.evict_eq`: reading and dropping one record.
-/
import CircularLog.Proofs.DataCircle
import CircularLog.Proofs.Varint
import CircularLog.Ring.Append
import CircularLog.Ring.Read

namespace CircularLog

/-- where two steps one after the other give a value, each of them does -/
theorem bind_eq_ok {ε α β : Type} {x : Except ε α} {f : α → Except ε β} {b : β} (h : (x >>= f) = .ok b) :
    ∃ a, x = .ok a ∧ f a = .ok b := by
  cases x with
  | error e => cases h
  | ok a => exact ⟨a, rfl, h⟩

/-! ## Ways around the circle -/

namespace Circle

/-- how far it is forward from one place to another -/
def way (capacity start stop : Nat) : Nat := (stop + capacity - start) % capacity

section Way

variable {capacity start stop count : Nat}

theorem way_lt (h : start < capacity) : way capacity start stop < capacity := Nat.mod_lt _ (by omega)

theorem way_of_le (hstop : stop < capacity) (h : start ≤ stop) : way capacity start stop = stop - start := by
  rw [way, show stop + capacity - start = stop - start + capacity by omega, Nat.add_mod_right,
    Nat.mod_eq_of_lt (by omega)]

theorem way_of_lt (hstart : start < capacity) (h : stop < start) :
    way capacity start stop = stop + capacity - start := by
  rw [way, Nat.mod_eq_of_lt (by omega)]

theorem way_eq_zero_iff (hstart : start < capacity) (hstop : stop < capacity) :
    way capacity start stop = 0 ↔ start = stop := by
  rcases Nat.lt_or_ge stop start with h | h
  · rw [way_of_lt hstart h]
    omega
  · rw [way_of_le hstop h]
    omega

/-- a sum of at most one turn -/
theorem add_mod_eq (hstart : start < capacity) (hcount : count ≤ capacity) :
    (start + count) % capacity = if start + count < capacity then start + count else start + count - capacity := by
  split
  · exact Nat.mod_eq_of_lt ‹_›
  · rw [Nat.mod_eq_sub_mod (by omega), Nat.mod_eq_of_lt (by omega)]

theorem add_way (hstart : start < capacity) (hstop : stop < capacity) :
    (start + way capacity start stop) % capacity = stop := by
  rcases Nat.lt_or_ge stop start with h | h
  · rw [way_of_lt hstart h, show start + (stop + capacity - start) = stop + capacity by omega, Nat.add_mod_right,
      Nat.mod_eq_of_lt hstop]
  · rw [way_of_le hstop h, Nat.add_sub_cancel' h, Nat.mod_eq_of_lt hstop]

theorem way_add (hstart : start < capacity) (hcount : count < capacity) :
    way capacity start ((start + count) % capacity) = count := by
  rw [add_mod_eq hstart hcount.le]
  split
  · rw [way_of_le ‹_› (by omega)]
    omega
  · rw [way_of_lt hstart (by omega)]
    omega

/-- the way that is left after part of it -/
theorem way_add_left (hstart : start < capacity) (hstop : stop < capacity) (h : count ≤ way capacity start stop) :
    way capacity ((start + count) % capacity) stop = way capacity start stop - count := by
  have hlt : way capacity start stop < capacity := way_lt hstart
  have hplace : (start + count) % capacity < capacity := Nat.mod_lt _ (by omega)
  have hback : ((start + count) % capacity + (way capacity start stop - count)) % capacity = stop := calc
    ((start + count) % capacity + (way capacity start stop - count)) % capacity
        = (start + (count + (way capacity start stop - count))) % capacity := by rw [Nat.mod_add_mod, Nat.add_assoc]
    _ = (start + way capacity start stop) % capacity := by rw [Nat.add_sub_cancel' h]
    _ = stop := add_way hstart hstop
  conv_lhs => rw [← hback]
  exact way_add hplace (by omega)

/-- the way that is left after a step past the end of it -/
theorem way_add_past (hstart : start < capacity) (hstop : stop < capacity)
    (hcount : count ≤ way capacity start stop + capacity) :
    way capacity ((start + count) % capacity) stop = (way capacity start stop + capacity - count) % capacity := by
  have hlt : way capacity start stop < capacity := way_lt hstart
  have hplace : (start + count) % capacity < capacity := Nat.mod_lt _ (by omega)
  have hback : ((start + count) % capacity + (way capacity start stop + capacity - count) % capacity) % capacity
      = stop := calc
    ((start + count) % capacity + (way capacity start stop + capacity - count) % capacity) % capacity
        = (start + count + (way capacity start stop + capacity - count)) % capacity := (Nat.add_mod _ _ _).symm
    _ = (start + way capacity start stop + capacity) % capacity := by
      congr 1
      omega
    _ = stop := by rw [Nat.add_mod_right, add_way hstart hstop]
  conv_lhs => rw [← hback]
  exact way_add hplace (Nat.mod_lt _ (by omega))

theorem distance_eq_way (hstart : start < capacity) (hstop : stop < capacity) :
    distance capacity start stop = .ok (way capacity start stop) := distance_eq_ok hstart hstop

end Way

end Circle

/-! ## Sound rings -/

/-- a file that can be opened as a ring of this capacity; no file is longer than `Image.maxSize` -/
structure Image.Opens (image : Image) (capacity : Nat) : Prop where
  size : image.size = ControlBlock.size + capacity
  bounded : image.size ≤ Image.maxSize
  marked : image.toBytes.take ControlBlock.mark.length = ControlBlock.mark
  start_lt : image.start < capacity
  stop_lt : image.stop < capacity

namespace Image.Opens

variable {image : Image} {capacity : Nat}

theorem pos (h : image.Opens capacity) : 0 < capacity := Nat.zero_lt_of_lt h.start_lt

theorem block_le (h : image.Opens capacity) : ControlBlock.size ≤ image.size := by
  have := h.size
  omega

theorem capacity_lt (h : image.Opens capacity) : capacity + 24 < 2 ^ 63 := by
  have hsize := h.size
  have hbounded := h.bounded
  simp only [ControlBlock.size, Span.base, Image.maxSize] at hsize hbounded
  omega

theorem length_circle (h : image.Opens capacity) : image.circle.length = capacity := Image.length_circle_eq h.size

theorem length_rotate (h : image.Opens capacity) (offset : Nat) : (image.circle.rotate offset).length = capacity := by
  rw [List.length_rotate, h.length_circle]

/-- an offset counts modulo the capacity -/
theorem rotate_mod (h : image.Opens capacity) (offset : Nat) :
    image.circle.rotate (offset % capacity) = image.circle.rotate offset := by
  rw [← h.length_circle, List.rotate_mod]

theorem lt_bound (h : image.Opens capacity) {place : Nat} (hplace : place < capacity) : place < Word.bound := by
  have := h.capacity_lt
  simp only [Word.bound]
  omega

theorem locate_eq (h : image.Opens capacity) (offset : Nat) {length : Nat} (hlength : length ≤ capacity) :
    Region.locate capacity offset length = .ok (Region.stretch capacity offset length) :=
  Region.locate_eq_ok h.pos hlength (h.size ▸ h.bounded)

theorem advance_eq (h : image.Opens capacity) {offset count : Nat} (hoffset : offset < capacity)
    (hcount : count ≤ capacity) : Circle.advance capacity offset count = .ok ((offset + count) % capacity) := by
  have hcapacity := h.capacity_lt
  apply Circle.advance_eq_ok h.pos
  simp only [Word.bound]
  omega

theorem setStart (h : image.Opens capacity) {offset : Nat} (hoffset : offset < capacity) :
    (image.setStart offset).Opens capacity where
  size := (size_setStart h.block_le).trans h.size
  bounded := (size_setStart h.block_le).trans_le h.bounded
  marked := (mark_setStart h.block_le).trans h.marked
  start_lt := (start_setStart h.block_le (h.lt_bound hoffset)).trans_lt hoffset
  stop_lt := (stop_setStart h.block_le).trans_lt h.stop_lt

theorem setStop (h : image.Opens capacity) {offset : Nat} (hoffset : offset < capacity) :
    (image.setStop offset).Opens capacity where
  size := (size_setStop h.block_le).trans h.size
  bounded := (size_setStop h.block_le).trans_le h.bounded
  marked := (mark_setStop h.block_le).trans h.marked
  start_lt := (start_setStop h.block_le).trans_lt h.start_lt
  stop_lt := (stop_setStop h.block_le (h.lt_bound hoffset)).trans_lt hoffset

end Image.Opens

/-- a ring on a file that opens, with the cursor on the circle -/
structure Ring.Sound (r : Ring) : Prop extends r.image.Opens r.capacity where
  cursor_lt : r.cursor < r.capacity

theorem Image.Opens.sound {image : Image} {capacity cursor : Nat} (h : image.Opens capacity)
    (hcursor : cursor < capacity) :
    ({ image, capacity, cursor } : Ring).Sound :=
  ⟨h, hcursor⟩

namespace Ring

/-- how many bytes hold records -/
def load (r : Ring) : Nat := Circle.way r.capacity r.image.start r.image.stop

section Step

variable {r : Ring} {offset stop : Nat} {frame : Frame}

theorem used_eq (h : r.image.Opens r.capacity) : r.used = .ok r.load := Circle.distance_eq_way h.start_lt h.stop_lt

theorem load_lt (h : r.image.Opens r.capacity) : r.load < r.capacity := Circle.way_lt h.start_lt

theorem available_eq (h : r.image.Opens r.capacity) : r.available = .ok (r.capacity - r.load) := by
  simp only [available, used_eq h, bind, Except.bind]
  exact Word.sub_eq_ok (load_lt h).le

/-! ## Finding a frame -/

/-- the file has to be as long as the capacity says; what its control block holds does not matter -/
theorem frameAt_eq_of_size (hsize : r.image.size = ControlBlock.size + r.capacity)
    (hfile : r.image.size ≤ Image.maxSize) (hoffset : offset < r.capacity) (hstop : stop < r.capacity) :
    r.frameAt offset stop
      = match Varint.decode ((r.image.circle.rotate offset).take
          (min (Circle.way r.capacity offset stop) Varint.maxSize)) with
        | .error e => refuse (.undecodableLength offset e)
        | .ok (payload, header) =>
          if Circle.way r.capacity offset stop < frameLength payload then refuse (.frameTooLong offset payload)
          else .ok { offset, header, payload } := by
  have hway : Circle.way r.capacity offset stop < r.capacity := Circle.way_lt hoffset
  have hfetch : Region.fetch r.image r.capacity offset (min (Circle.way r.capacity offset stop) Varint.maxSize)
      = .ok ((r.image.circle.rotate offset).take (min (Circle.way r.capacity offset stop) Varint.maxSize)) :=
    Region.fetch_eq_ok hsize hfile (by omega) (by omega)
  rw [frameAt, Circle.distance_eq_way hoffset hstop]
  simp only [bind, Except.bind, hfetch]
  cases Varint.decode ((r.image.circle.rotate offset).take
      (min (Circle.way r.capacity offset stop) Varint.maxSize)) with
  | error e => rfl
  | ok found => rfl

theorem frameAt_eq (h : r.image.Opens r.capacity) (hoffset : offset < r.capacity) (hstop : stop < r.capacity) :
    r.frameAt offset stop
      = match Varint.decode ((r.image.circle.rotate offset).take
          (min (Circle.way r.capacity offset stop) Varint.maxSize)) with
        | .error e => refuse (.undecodableLength offset e)
        | .ok (payload, header) =>
          if Circle.way r.capacity offset stop < frameLength payload then refuse (.frameTooLong offset payload)
          else .ok { offset, header, payload } :=
  frameAt_eq_of_size h.size h.bounded hoffset hstop

/-- a frame is found only where a prefix decodes before `stop`, and only if its record would fit behind the shortest
prefix of its length -/
theorem frameAt_ok (h : r.image.Opens r.capacity) (hoffset : offset < r.capacity) (hstop : stop < r.capacity)
    (hframe : r.frameAt offset stop = .ok frame) :
    frame.offset = offset ∧ 0 < frame.header ∧ frame.header ≤ Circle.way r.capacity offset stop
      ∧ frame.header ≤ Varint.maxSize ∧ Varint.size frame.payload ≤ frame.header
      ∧ frameLength frame.payload ≤ Circle.way r.capacity offset stop := by
  rw [frameAt_eq h hoffset hstop] at hframe
  split at hframe
  · cases hframe
  · rename_i payload header hdecode
    split at hframe
    · cases hframe
    · rename_i hfits
      obtain rfl : ({ offset, header, payload } : Frame) = frame := by simpa using hframe
      obtain ⟨hpos, hlength, hmax, hshortest⟩ := Varint.decode_ok hdecode
      rw [List.length_take] at hlength
      have hheader : header ≤ Circle.way r.capacity offset stop := by omega
      exact ⟨rfl, hpos, hheader, hmax, hshortest, Nat.le_of_not_lt hfits⟩

/-- a frame that is found takes at most nine bytes more than there are before `stop` -/
theorem frame_length_le (h : r.image.Opens r.capacity) (hoffset : offset < r.capacity) (hstop : stop < r.capacity)
    (hframe : r.frameAt offset stop = .ok frame) :
    0 < frame.length ∧ frame.length ≤ Circle.way r.capacity offset stop + 9
      ∧ frame.length ≤ 2 * Circle.way r.capacity offset stop := by
  obtain ⟨-, hpos, hheader, hmax, -, hfits⟩ := frameAt_ok h hoffset hstop hframe
  have hsize := Varint.size_pos frame.payload
  simp only [frameLength, Varint.maxSize, Frame.length] at *
  omega

theorem offset_add_length_lt (h : r.image.Opens r.capacity) (hoffset : offset < r.capacity) (hstop : stop < r.capacity)
    (hframe : r.frameAt offset stop = .ok frame) : offset + frame.length < Word.bound := by
  obtain ⟨-, hlength, -⟩ := frame_length_le h hoffset hstop hframe
  have hway : Circle.way r.capacity offset stop < r.capacity := Circle.way_lt hoffset
  have hcapacity := h.capacity_lt
  simp only [Word.bound]
  omega

/-! ## Reading a record -/

/-- the ring with the cursor behind the frame -/
def pass (r : Ring) (frame : Frame) : Ring := { r with cursor := (r.cursor + frame.length) % r.capacity }

theorem skip_eq (h : r.Sound) (hframe : r.frameAt r.cursor r.image.stop = .ok frame) :
    r.skip frame = .ok (r.pass frame) := by
  have hoffset := (frameAt_ok h.toOpens h.cursor_lt h.stop_lt hframe).1
  rw [skip, hoffset, Circle.advance_eq_ok h.pos (offset_add_length_lt h.toOpens h.cursor_lt h.stop_lt hframe)]
  rfl

theorem payload_le (h : r.image.Opens r.capacity) (hoffset : offset < r.capacity) (hstop : stop < r.capacity)
    (hframe : r.frameAt offset stop = .ok frame) : frame.payload < r.capacity := by
  obtain ⟨-, -, -, -, -, hfits⟩ := frameAt_ok h hoffset hstop hframe
  have hway : Circle.way r.capacity offset stop < r.capacity := Circle.way_lt hoffset
  simp only [frameLength] at hfits
  omega

theorem readPayload_eq (h : r.Sound) (hframe : r.frameAt r.cursor r.image.stop = .ok frame) :
    r.readPayload frame 0 frame.payload
      = ((r.image.circle.rotate (r.cursor + frame.header)).take frame.payload, .ok ()) := by
  have hoffset := (frameAt_ok h.toOpens h.cursor_lt h.stop_lt hframe).1
  have hsum := offset_add_length_lt h.toOpens h.cursor_lt h.stop_lt hframe
  have hpayload := payload_le h.toOpens h.cursor_lt h.stop_lt hframe
  simp only [Frame.length] at hsum
  have hheader : Word.add frame.offset frame.header = .ok (r.cursor + frame.header) := by
    rw [hoffset]
    exact Word.add_eq_ok (by omega)
  have hzero : Word.add (r.cursor + frame.header) 0 = .ok (r.cursor + frame.header) := Word.add_eq_ok (by omega)
  simp only [readPayload, hheader, hzero, bind, Except.bind]
  exact Region.read_eq_ok h.size h.bounded h.pos hpayload.le

/-- reading a record: there is none, its frame is not accepted, or the cursor passes it -/
theorem record_eq (h : r.Sound) :
    r.record
      = if r.cursor = r.image.stop then .ok (r, none)
        else match r.frameAt r.cursor r.image.stop with
          | .error stop => .error stop
          | .ok frame =>
            .ok (r.pass frame, some ((r.image.circle.rotate (r.cursor + frame.header)).take frame.payload)) := by
  rw [record, next]
  split
  · rfl
  · cases hframe : r.frameAt r.cursor r.image.stop with
    | error stop => rfl
    | ok frame =>
      have hpayload := payload_le h.toOpens h.cursor_lt h.stop_lt hframe
      have hcapacity := h.capacity_lt
      have hbuffer : ¬maxBuffer < frame.payload := by
        simp only [maxBuffer]
        omega
      simp only [bind, Except.bind, pure, Except.pure, Functor.map, Except.map, if_neg hbuffer,
        readPayload_eq h hframe, skip_eq h hframe]

theorem Sound.pass (h : r.Sound) (frame : Frame) : (r.pass frame).Sound :=
  { h with cursor_lt := Nat.mod_lt _ h.pos }

/-! ## Dropping the oldest record -/

/-- the ring without its oldest record, whose frame is given; a cursor within the frame moves behind it -/
def drop (r : Ring) (frame : Frame) : Ring :=
  { r with
    image := r.image.setStart ((r.image.start + frame.length) % r.capacity)
    cursor := if Circle.way r.capacity r.image.start r.cursor < frame.length
      then (r.image.start + frame.length) % r.capacity else r.cursor }

theorem evict_eq (h : r.Sound) :
    r.evict
      = if r.image.start = r.image.stop then (r, refuse .nothingToEvict)
        else match r.frameAt r.image.start r.image.stop with
          | .error stop => (r, .error stop)
          | .ok frame => (r.drop frame, .ok ()) := by
  by_cases hempty : r.image.start = r.image.stop
  · simp only [evict, oldest, if_pos hempty, refuse, bind, Except.bind]
  · rw [if_neg hempty]
    cases hframe : r.frameAt r.image.start r.image.stop with
    | error stop => simp only [evict, oldest, if_neg hempty, hframe, bind, Except.bind]
    | ok frame =>
      have hoffset := (frameAt_ok h.toOpens h.start_lt h.stop_lt hframe).1
      have hadvance : Circle.advance r.capacity r.image.start frame.length
          = .ok ((r.image.start + frame.length) % r.capacity) :=
        Circle.advance_eq_ok h.pos (offset_add_length_lt h.toOpens h.start_lt h.stop_lt hframe)
      have hdistance : Circle.distance r.capacity frame.offset r.cursor
          = .ok (Circle.way r.capacity r.image.start r.cursor) := by
        rw [hoffset]
        exact Circle.distance_eq_way h.start_lt h.cursor_lt
      have holdest : r.oldest = .ok (frame, (r.image.start + frame.length) % r.capacity) := by
        simp only [oldest, if_neg hempty, hframe, hadvance, bind, Except.bind, pure, Except.pure]
      rw [evict, holdest]
      simp only [hdistance, drop]

@[simp] theorem capacity_drop (r : Ring) (frame : Frame) : (r.drop frame).capacity = r.capacity := by
  -- not by `rfl`, which would compare the images first
  simp only [drop]

theorem Sound.drop (h : r.Sound) (frame : Frame) : (r.drop frame).Sound := by
  have hplace : (r.image.start + frame.length) % r.capacity < r.capacity := Nat.mod_lt _ h.pos
  have hcursor : (r.drop frame).cursor < r.capacity := by
    rw [Ring.drop]
    by_cases hpassed : Circle.way r.capacity r.image.start r.cursor < frame.length
    · simp only [if_pos hpassed]
      exact hplace
    · simp only [if_neg hpassed]
      exact h.cursor_lt
  refine ⟨?_, ?_⟩
  · rw [Ring.drop]
    exact h.toOpens.setStart hplace
  · rwa [capacity_drop]

theorem start_drop (h : r.Sound) (frame : Frame) :
    (r.drop frame).image.start = (r.image.start + frame.length) % r.capacity :=
  Image.start_setStart h.block_le (h.lt_bound (Nat.mod_lt _ h.pos))

theorem stop_drop (h : r.Sound) (frame : Frame) : (r.drop frame).image.stop = r.image.stop :=
  Image.stop_setStart h.block_le

theorem circle_drop (h : r.Sound) (frame : Frame) : (r.drop frame).image.circle = r.image.circle :=
  Image.circle_setStart h.block_le

/-! ## The place for a new record -/

/-- behind the newest record there is a place for every record that leaves a byte of the circle free -/
theorem vacancy_eq (h : r.image.Opens r.capacity) {payload : Nat} (hfits : frameLength payload < r.capacity) :
    r.vacancy payload = .ok
      { header := Region.stretch r.capacity r.image.stop (Varint.size payload)
        payload := Region.stretch r.capacity (r.image.stop + Varint.size payload) payload
        next := (r.image.stop + frameLength payload) % r.capacity } := by
  have hstop := h.stop_lt
  have hcapacity := h.capacity_lt
  have hparts := frameLength_eq payload
  have hadd : Word.add r.image.stop (Varint.size payload) = .ok (r.image.stop + Varint.size payload) := by
    apply Word.add_eq_ok
    simp only [Word.bound]
    omega
  have hadvance := h.advance_eq hstop hfits.le
  have hheader := h.locate_eq r.image.stop (show Varint.size payload ≤ r.capacity by omega)
  have hpayload := h.locate_eq (r.image.stop + Varint.size payload) (show payload ≤ r.capacity by omega)
  simp only [vacancy, hadd, hadvance, hheader, hpayload, bind, Except.bind, pure, Except.pure]

theorem atStop_eq (h : r.image.Opens r.capacity) {total : Nat} (hfits : frameLength total < r.capacity) :
    Writer.atStop r total = .ok
      { offset := r.image.stop, total, next := (r.image.stop + Varint.size total) % r.capacity,
        remaining := total } := by
  have hparts := frameLength_eq total
  have hadvance := h.advance_eq h.stop_lt (show Varint.size total ≤ r.capacity by omega)
  simp only [Writer.atStop, hadvance, bind, Except.bind, pure, Except.pure]

end Step

end Ring

end CircularLog
