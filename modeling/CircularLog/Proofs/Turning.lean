/-
A file whose data are turned on their circle. Each byte of the data is `k` places further on, and so are the start
offset, the stop offset and every cursor; the control block is otherwise the same. No operation can tell the difference:
it finds the same frames, makes the same room and gives the same bytes, and what it leaves is turned as well.

- `Image.turned`: the file; `Image.Opens.turned`: it opens as well; `Image.Opens.rotate_turned`: its data, seen from a
  place that has been turned.
- `Image.Opens.turned_setStart`, `Image.Opens.turned_setStop`, `Image.Opens.turned_scatter`: turning and writing.
- `Ring.Sound.frameAt_turned`, `Ring.Sound.makeRoom_turned`: finding a frame, and making room.
- `Ring.Sound.act_turned`: whatever is asked of a ring.
-/
import CircularLog.Proofs.Streaming

namespace CircularLog

/-! ## Places -/

namespace Circle

/-- the place that is `k` bytes further on -/
def turn (capacity k place : Nat) : Nat := (place + k) % capacity

section Turn

variable {capacity k place other count : Nat}

theorem turn_lt (k : Nat) (h : place < capacity) : turn capacity k place < capacity :=
  Nat.mod_lt _ (Nat.zero_lt_of_lt h)

theorem turn_mod (capacity k place : Nat) : turn capacity k place % capacity = (place + k) % capacity := Nat.mod_mod _ _

theorem turn_add_mod (capacity k place count : Nat) :
    (turn capacity k place + count) % capacity = (place + count + k) % capacity := by
  rw [turn, Nat.mod_add_mod, Nat.add_right_comm]

/-- a step from a place that has been turned -/
theorem turn_add (capacity k place count : Nat) :
    (turn capacity k place + count) % capacity = turn capacity k ((place + count) % capacity) := by
  rw [turn_add_mod, turn, Nat.mod_add_mod]

/-- turning changes no distance -/
theorem way_turn (hplace : place < capacity) (hother : other < capacity) :
    way capacity (turn capacity k place) (turn capacity k other) = way capacity place other := by
  have hback : other = (place + way capacity place other) % capacity := (add_way hplace hother).symm
  conv_lhs => rw [hback, ← turn_add]
  exact way_add (turn_lt k hplace) (way_lt hplace)

theorem turn_inj (hplace : place < capacity) (hother : other < capacity) :
    turn capacity k place = turn capacity k other ↔ place = other := by
  rw [← way_eq_zero_iff (turn_lt k hplace) (turn_lt k hother), way_turn hplace hother, way_eq_zero_iff hplace hother]

end Turn

end Circle

/-! ## Files -/

namespace Image

/-- the data turned, and the control block as it was -/
def spun (image : Image) (capacity k : Nat) : Image :=
  .ofBytes (image.head ++ image.circle.rotate (capacity - k % capacity))

/-- the data and both offsets turned -/
def turned (image : Image) (capacity k : Nat) : Image :=
  ((image.spun capacity k).setStart (Circle.turn capacity k image.start)).setStop (Circle.turn capacity k image.stop)

/-- a file is its mark and its flags, its offsets and its data -/
theorem ext_parts {image other : Image} (hsize : ControlBlock.size ≤ image.size)
    (hsize' : ControlBlock.size ≤ other.size)
    (hfront : image.front = other.front) (hstart : image.start = other.start) (hstop : image.stop = other.stop)
    (hcircle : image.circle = other.circle) : image = other := by
  apply ext_head_circle _ hcircle
  rw [head_eq hsize, head_eq hsize', hfront, hstart, hstop]

section Turned

variable {image : Image} {capacity k : Nat}

theorem spun_parts (h : image.Opens capacity) (k : Nat) :
    (image.spun capacity k).size = image.size ∧ (image.spun capacity k).head = image.head
      ∧ (image.spun capacity k).circle = image.circle.rotate (capacity - k % capacity) := by
  have hhead := length_head h.block_le
  have hbytes : (image.spun capacity k).toBytes = image.head ++ image.circle.rotate (capacity - k % capacity) :=
    toBytes_ofBytes _
  refine ⟨?_, ?_, ?_⟩
  · rw [← length_toBytes, hbytes, List.length_append, hhead, h.length_rotate, h.size]
  · rw [head, hbytes, ← hhead, List.take_left]
  · rw [circle, hbytes, ← hhead, List.drop_left]

namespace Opens

theorem spun (h : image.Opens capacity) (k : Nat) : (image.spun capacity k).Opens capacity := by
  obtain ⟨hsize, hhead, -⟩ := spun_parts h k
  exact h.of_head hsize hhead

/-- a file that opens still does -/
theorem turned (h : image.Opens capacity) (k : Nat) : (image.turned capacity k).Opens capacity :=
  ((h.spun k).setStart (Circle.turn_lt k h.start_lt)).setStop (Circle.turn_lt k h.stop_lt)

theorem front_turned (h : image.Opens capacity) (k : Nat) : (image.turned capacity k).front = image.front := by
  have hspun := h.spun k
  rw [Image.turned, front_setStop (hspun.setStart (Circle.turn_lt k h.start_lt)).block_le,
    front_setStart hspun.block_le]
  exact front_congr (spun_parts h k).2.1

theorem start_turned (h : image.Opens capacity) (k : Nat) :
    (image.turned capacity k).start = Circle.turn capacity k image.start := by
  have hspun := h.spun k
  have hplace := Circle.turn_lt k h.start_lt
  rw [Image.turned, start_setStop (hspun.setStart hplace).block_le, start_setStart hspun.block_le (h.lt_bound hplace)]

theorem stop_turned (h : image.Opens capacity) (k : Nat) :
    (image.turned capacity k).stop = Circle.turn capacity k image.stop :=
  stop_setStop ((h.spun k).setStart (Circle.turn_lt k h.start_lt)).block_le (h.lt_bound (Circle.turn_lt k h.stop_lt))

theorem circle_turned (h : image.Opens capacity) (k : Nat) :
    (image.turned capacity k).circle = image.circle.rotate (capacity - k % capacity) := by
  have hspun := h.spun k
  rw [Image.turned, circle_setStop (hspun.setStart (Circle.turn_lt k h.start_lt)).block_le,
    circle_setStart hspun.block_le]
  exact (spun_parts h k).2.2

theorem flags_turned (h : image.Opens capacity) (k : Nat) : (image.turned capacity k).flags = image.flags :=
  flags_of_front (h.front_turned k)

/-- seen from a place that has been turned, the data are what they were from the place itself -/
theorem rotate_turned (h : image.Opens capacity) {place seen : Nat} (hseen : seen % capacity = (place + k) % capacity) :
    (image.turned capacity k).circle.rotate seen = image.circle.rotate place := by
  have hk : k % capacity < capacity := Nat.mod_lt _ h.pos
  have hplace : (capacity - k % capacity + seen) % capacity = place % capacity := calc
    (capacity - k % capacity + seen) % capacity
        = (capacity - k % capacity + (place + k)) % capacity := by rw [Nat.add_mod, hseen, ← Nat.add_mod]
    _ = (place + capacity + capacity * (k / capacity)) % capacity := by
        have hparts := Nat.mod_add_div k capacity
        congr 1
        omega
    _ = place % capacity := by rw [Nat.add_mul_mod_self_left, Nat.add_mod_right]
  rw [h.circle_turned, List.rotate_rotate, ← h.rotate_mod, hplace, h.rotate_mod]

/-- the turned file is the one that these four things are true of -/
theorem eq_turned {other : Image} (h : image.Opens capacity) (hother : other.Opens capacity) (place : Nat)
    (hfront : other.front = image.front) (hstart : other.start = Circle.turn capacity k image.start)
    (hstop : other.stop = Circle.turn capacity k image.stop)
    (hcircle : other.circle.rotate (place + k) = image.circle.rotate place) : other = image.turned capacity k := by
  apply ext_parts hother.block_le (h.turned k).block_le
  · rw [hfront, h.front_turned]
  · rw [hstart, h.start_turned]
  · rw [hstop, h.stop_turned]
  · apply List.rotate_injective (place + k)
    exact hcircle.trans (h.rotate_turned rfl).symm

section Writes

variable {place seen : Nat} {data : Bytes}

theorem turned_setStart (h : image.Opens capacity) (k : Nat) (hplace : place < capacity) :
    (image.turned capacity k).setStart (Circle.turn capacity k place) = (image.setStart place).turned capacity k := by
  have hturn := Circle.turn_lt k hplace
  have hturned := h.turned k
  apply (h.setStart hplace).eq_turned (hturned.setStart hturn) place
  · rw [front_setStart hturned.block_le, h.front_turned, front_setStart h.block_le]
  · rw [start_setStart hturned.block_le (h.lt_bound hturn), start_setStart h.block_le (h.lt_bound hplace)]
  · rw [stop_setStart hturned.block_le, h.stop_turned, stop_setStart h.block_le]
  · rw [circle_setStart hturned.block_le, circle_setStart h.block_le]
    exact h.rotate_turned rfl

theorem turned_setStop (h : image.Opens capacity) (k : Nat) (hplace : place < capacity) :
    (image.turned capacity k).setStop (Circle.turn capacity k place) = (image.setStop place).turned capacity k := by
  have hturn := Circle.turn_lt k hplace
  have hturned := h.turned k
  apply (h.setStop hplace).eq_turned (hturned.setStop hturn) place
  · rw [front_setStop hturned.block_le, h.front_turned, front_setStop h.block_le]
  · rw [start_setStop hturned.block_le, h.start_turned, start_setStop h.block_le]
  · rw [stop_setStop hturned.block_le (h.lt_bound hturn), stop_setStop h.block_le (h.lt_bound hplace)]
  · rw [circle_setStop hturned.block_le, circle_setStop h.block_le]
    exact h.rotate_turned rfl

/-- bytes that run over the end of the data in one file may not do so in the other -/
theorem turned_scatter (h : image.Opens capacity) (hseen : seen % capacity = (place + k) % capacity)
    (hlength : data.length ≤ capacity) :
    Region.scatter (image.turned capacity k) (Region.stretch capacity seen data.length) data
      = (Region.scatter image (Region.stretch capacity place data.length) data).turned capacity k := by
  have hturned := h.turned k
  rw [Region.stretch_congr data.length hseen]
  obtain ⟨-, hhead, hcircle⟩ := Region.scatter_stretch place h.size h.pos hlength
  obtain ⟨-, hhead', hcircle'⟩ := Region.scatter_stretch (place + k) hturned.size h.pos hlength
  apply (h.scatter place hlength).eq_turned (hturned.scatter (place + k) hlength) place
  · rw [front_congr hhead', h.front_turned, front_congr hhead]
  · rw [start_congr hhead', h.start_turned, start_congr hhead]
  · rw [stop_congr hhead', h.stop_turned, stop_congr hhead]
  · rw [hcircle', hcircle, h.rotate_turned rfl]

end Writes

end Opens

end Turned

end Image

/-! ## Rings, frames and records in pieces -/

def Frame.turned (capacity k : Nat) (frame : Frame) : Frame :=
  { frame with offset := Circle.turn capacity k frame.offset }

@[simp] theorem Frame.header_turned (capacity k : Nat) (frame : Frame) :
    (frame.turned capacity k).header = frame.header := rfl

@[simp] theorem Frame.payload_turned (capacity k : Nat) (frame : Frame) :
    (frame.turned capacity k).payload = frame.payload := rfl

@[simp] theorem Frame.length_turned (capacity k : Nat) (frame : Frame) :
    (frame.turned capacity k).length = frame.length := rfl

def Reader.turned (capacity k : Nat) (reader : Reader) : Reader :=
  { reader with frame := reader.frame.turned capacity k }

def Writer.turned (capacity k : Nat) (writer : Writer) : Writer :=
  { writer with offset := Circle.turn capacity k writer.offset, next := Circle.turn capacity k writer.next }

def Stream.turned (capacity k : Nat) : Stream → Stream
  | .writing writer => .writing (writer.turned capacity k)
  | .reading reader => .reading (reader.turned capacity k)

def Usage.turned (capacity k : Nat) (usage : Usage) : Usage :=
  { usage with start := Circle.turn capacity k usage.start, stop := Circle.turn capacity k usage.stop }

/-- the same refusal, of something that is found `k` bytes further on -/
def Refusal.turned (capacity k : Nat) : Refusal → Refusal
  | .system offset cause => .system (offset.map (Circle.turn capacity k)) cause
  | .startOutOfRange offset => .startOutOfRange (Circle.turn capacity k offset)
  | .stopOutOfRange offset => .stopOutOfRange (Circle.turn capacity k offset)
  | .undecodableLength offset e => .undecodableLength (Circle.turn capacity k offset) e
  | .frameTooLong offset payload => .frameTooLong (Circle.turn capacity k offset) payload
  | .bufferTooSmall offset payload => .bufferTooSmall (Circle.turn capacity k offset) payload
  | refusal => refusal

def Stop.turned (capacity k : Nat) : Stop → Stop
  | .refused refusal => .refused (refusal.turned capacity k)
  | .fault reason => .fault reason

/-- the value as `f` has it, or the same reason that there is none -/
def Outcome.turned {α β : Type} (capacity k : Nat) (f : α → β) : Outcome α → Outcome β
  | .ok a => .ok (f a)
  | .error stop => .error (stop.turned capacity k)

def Ring.turned (k : Nat) (r : Ring) : Ring :=
  { r with image := r.image.turned r.capacity k, cursor := Circle.turn r.capacity k r.cursor }

namespace Ring

section Turned

variable {r next : Ring} {k offset stop length payload total : Nat} {frame : Frame} {was now : Option Stream}
  {data chunk : Bytes} {writer : Writer} {reader : Reader}

-- not by `rfl`, which would compare the images first
theorem capacity_turned (k : Nat) (r : Ring) : (r.turned k).capacity = r.capacity := by simp only [turned]

theorem image_turned (k : Nat) (r : Ring) : (r.turned k).image = r.image.turned r.capacity k := by simp only [turned]

theorem cursor_turned (k : Nat) (r : Ring) :
    (r.turned k).cursor = Circle.turn r.capacity k r.cursor := by simp only [turned]

theorem opens_turned (h : r.image.Opens r.capacity) (k : Nat) : (r.turned k).image.Opens (r.turned k).capacity := by
  rw [image_turned, capacity_turned]
  exact h.turned k

theorem Sound.turned (h : r.Sound) (k : Nat) : (r.turned k).Sound where
  toOpens := opens_turned h.toOpens k
  cursor_lt := by
    rw [cursor_turned, capacity_turned]
    exact Circle.turn_lt k h.cursor_lt

theorem writer_turned (k : Nat) (h : writer.InRange r.capacity) :
    (writer.turned r.capacity k).InRange (r.turned k).capacity := by
  rw [capacity_turned]
  exact ⟨Circle.turn_lt k h.offset_lt, Circle.turn_lt k h.next_lt, h.remaining_le, h.fits⟩

theorem reader_turned (k : Nat) (h : reader.InRange r.capacity) :
    (reader.turned r.capacity k).InRange (r.turned k).capacity := by
  rw [capacity_turned]
  exact ⟨⟨Circle.turn_lt k h.frame.offset_lt, h.frame.header_le, h.frame.payload_lt⟩, h.consumed_le⟩

theorem load_turned (h : r.image.Opens r.capacity) (k : Nat) : (r.turned k).load = r.load := by
  rw [load, load, image_turned, capacity_turned, h.start_turned, h.stop_turned]
  exact Circle.way_turn h.start_lt h.stop_lt

/-- **Finding a frame.** The same bytes are decoded, and as many are ahead. -/
theorem frameAt_turned (h : r.image.Opens r.capacity) (k : Nat) (hoffset : offset < r.capacity)
    (hstop : stop < r.capacity) :
    (r.turned k).frameAt (Circle.turn r.capacity k offset) (Circle.turn r.capacity k stop)
      = Outcome.turned r.capacity k (Frame.turned r.capacity k) (r.frameAt offset stop) := by
  have hbytes : (r.turned k).image.circle.rotate (Circle.turn r.capacity k offset) = r.image.circle.rotate offset := by
    rw [image_turned]
    exact h.rotate_turned (Circle.turn_mod _ _ _)
  have hway := Circle.way_turn (k := k) hoffset hstop
  have hoffset' : Circle.turn r.capacity k offset < (r.turned k).capacity := by
    rw [capacity_turned]
    exact Circle.turn_lt k hoffset
  have hstop' : Circle.turn r.capacity k stop < (r.turned k).capacity := by
    rw [capacity_turned]
    exact Circle.turn_lt k hstop
  rw [frameAt_eq (opens_turned h k) hoffset' hstop', frameAt_eq h hoffset hstop]
  simp only [hbytes, capacity_turned, hway]
  split
  · rfl
  · split <;> rfl

theorem start_turned (h : r.image.Opens r.capacity) (k : Nat) :
    (r.turned k).image.start = Circle.turn r.capacity k r.image.start := by
  rw [image_turned, h.start_turned]

theorem stop_turned (h : r.image.Opens r.capacity) (k : Nat) :
    (r.turned k).image.stop = Circle.turn r.capacity k r.image.stop := by
  rw [image_turned, h.stop_turned]

/-- the bytes that are read from behind a place -/
theorem rotate_turned (h : r.image.Opens r.capacity) (k offset count : Nat) :
    (r.turned k).image.circle.rotate (Circle.turn r.capacity k offset + count)
      = r.image.circle.rotate (offset + count) := by
  rw [image_turned]
  exact h.rotate_turned (Circle.turn_add_mod _ _ _ _)

/-! ### Reading -/

theorem cursor_eq_stop_turned (h : r.Sound) (k : Nat) :
    (r.turned k).cursor = (r.turned k).image.stop ↔ r.cursor = r.image.stop := by
  rw [cursor_turned, stop_turned h.toOpens]
  exact Circle.turn_inj h.cursor_lt h.stop_lt

theorem frame_turned (h : r.Sound) (k : Nat) :
    (r.turned k).frameAt (r.turned k).cursor (r.turned k).image.stop
      = Outcome.turned r.capacity k (Frame.turned r.capacity k) (r.frameAt r.cursor r.image.stop) := by
  rw [cursor_turned, stop_turned h.toOpens]
  exact frameAt_turned h.toOpens k h.cursor_lt h.stop_lt

theorem pass_turned (k : Nat) (r : Ring) (frame : Frame) :
    (r.turned k).pass (frame.turned r.capacity k) = (r.pass frame).turned k := by
  have hcursor := Circle.turn_add r.capacity k r.cursor frame.length
  simp only [pass, turned]
  exact congrArg (fun cursor => ({ image := r.image.turned r.capacity k, capacity := r.capacity, cursor } : Ring))
    hcursor

theorem record_turned (h : r.Sound) (k : Nat) :
    (r.turned k).record = Outcome.turned r.capacity k (fun found => (found.1.turned k, found.2)) r.record := by
  rw [record_eq (h.turned k), record_eq h]
  by_cases hend : r.cursor = r.image.stop
  · rw [if_pos hend, if_pos ((cursor_eq_stop_turned h k).2 hend)]
    rfl
  · rw [if_neg hend, if_neg (mt (cursor_eq_stop_turned h k).1 hend), frame_turned h]
    cases hframe : r.frameAt r.cursor r.image.stop with
    | error stop => rfl
    | ok frame =>
      have hbytes := rotate_turned h.toOpens k r.cursor frame.header
      simp only [Outcome.turned, pass_turned, cursor_turned, Frame.header_turned, Frame.payload_turned] at hbytes ⊢
      rw [hbytes]

theorem read_turned (h : r.Sound) (k : Nat) (buffer : Bytes) :
    (r.turned k).read buffer
      = ((r.read buffer).1, Outcome.turned r.capacity k (fun found => (found.1.turned k, found.2))
        (r.read buffer).2) := by
  rw [read_eq (h.turned k), read_eq h]
  by_cases hend : r.cursor = r.image.stop
  · rw [if_pos hend, if_pos ((cursor_eq_stop_turned h k).2 hend)]
    rfl
  · rw [if_neg hend, if_neg (mt (cursor_eq_stop_turned h k).1 hend), frame_turned h]
    cases hframe : r.frameAt r.cursor r.image.stop with
    | error stop => rfl
    | ok frame =>
      have hbytes := rotate_turned h.toOpens k r.cursor frame.header
      by_cases hsmall : buffer.length < frame.payload
      · have hsmall' : buffer.length < (frame.turned r.capacity k).payload := hsmall
        simp only [Outcome.turned, if_pos hsmall, if_pos hsmall']
        rfl
      · simp only [Outcome.turned, if_neg hsmall, pass_turned, cursor_turned, Frame.header_turned,
          Frame.payload_turned] at hbytes ⊢
        rw [hbytes]

theorem startRead_turned (h : r.Sound) (k : Nat) :
    Reader.start (r.turned k) = Outcome.turned r.capacity k (Option.map (Reader.turned r.capacity k))
      (Reader.start r) := by
  rw [start_eq, start_eq]
  by_cases hend : r.cursor = r.image.stop
  · rw [if_pos hend, if_pos ((cursor_eq_stop_turned h k).2 hend)]
    rfl
  · rw [if_neg hend, if_neg (mt (cursor_eq_stop_turned h k).1 hend), frame_turned h]
    cases hframe : r.frameAt r.cursor r.image.stop with
    | error stop => rfl
    | ok frame => rfl

theorem nextSize_turned (h : r.Sound) (k : Nat) :
    (r.turned k).nextSize = Outcome.turned r.capacity k id r.nextSize := by
  simp only [nextSize, next]
  by_cases hend : r.cursor = r.image.stop
  · rw [if_pos hend, if_pos ((cursor_eq_stop_turned h k).2 hend)]
    rfl
  · rw [if_neg hend, if_neg (mt (cursor_eq_stop_turned h k).1 hend), frame_turned h]
    cases hframe : r.frameAt r.cursor r.image.stop with
    | error stop => rfl
    | ok frame => rfl

theorem usage_turned (h : r.image.Opens r.capacity) (k : Nat) :
    (r.turned k).usage = Outcome.turned r.capacity k (Usage.turned r.capacity k) r.usage := by
  have hload := load_turned h k
  have hflags : (r.turned k).image.flags = r.image.flags := by rw [image_turned, h.flags_turned]
  have hcapacity := h.capacity_lt
  have hsize : Word.add ControlBlock.size r.capacity = .ok (ControlBlock.size + r.capacity) := by
    apply Word.add_eq_ok
    simp only [ControlBlock.size, Span.base, Word.bound]
    omega
  have hfree : Word.sub r.capacity r.load = .ok (r.capacity - r.load) := Word.sub_eq_ok (load_lt h).le
  simp only [usage, used_eq (opens_turned h k), used_eq h, hload, capacity_turned, start_turned h, stop_turned h,
    hflags, hsize, hfree, bind, Except.bind, pure, Except.pure, Outcome.turned, Usage.turned]

/-- what is refused leaves the ring as it was, turned or not -/
theorem after_turned {α : Type} (k : Nat) (r : Ring) (result : Outcome (Ring × α)) :
    (r.turned k).after (Outcome.turned r.capacity k (fun found => (found.1.turned k, found.2)) result)
      = ((r.after result).1.turned k, Outcome.turned r.capacity k id (r.after result).2) := by
  cases result <;> rfl

/-! ### Making room -/

theorem drop_turned (h : r.Sound) (k : Nat) (frame : Frame) :
    (r.turned k).drop (frame.turned r.capacity k) = (r.drop frame).turned k := by
  have hplace : (r.image.start + frame.length) % r.capacity < r.capacity := Nat.mod_lt _ h.pos
  have hnext := Circle.turn_add r.capacity k r.image.start frame.length
  have hway := Circle.way_turn (k := k) h.start_lt h.cursor_lt
  have himage := h.turned_setStart k hplace
  simp only [drop, image_turned, h.start_turned, cursor_turned, capacity_turned, Frame.length_turned, hnext,
    hway, himage]
  rw [turned]
  by_cases hpassed : Circle.way r.capacity r.image.start r.cursor < frame.length
  · simp only [if_pos hpassed]
  · simp only [if_neg hpassed]

theorem evict_turned (h : r.Sound) (k : Nat) :
    (r.turned k).evict = ((r.evict).1.turned k, Outcome.turned r.capacity k id (r.evict).2) := by
  have hempty : (r.turned k).image.start = (r.turned k).image.stop ↔ r.image.start = r.image.stop := by
    rw [start_turned h.toOpens, stop_turned h.toOpens]
    exact Circle.turn_inj h.start_lt h.stop_lt
  rw [evict_eq (h.turned k), evict_eq h]
  by_cases hnone : r.image.start = r.image.stop
  · rw [if_pos hnone, if_pos (hempty.2 hnone)]
    rfl
  · rw [if_neg hnone, if_neg (mt hempty.1 hnone), start_turned h.toOpens, stop_turned h.toOpens,
      frameAt_turned h.toOpens k h.start_lt h.stop_lt]
    cases hframe : r.frameAt r.image.start r.image.stop with
    | error stop => rfl
    | ok frame =>
      simp only [Outcome.turned, drop_turned h]

/-- the loop goes round as often -/
theorem reserveWithin_turned (h : r.Sound) (k fuel length : Nat) :
    reserveWithin fuel (r.turned k) length
      = ((reserveWithin fuel r length).1.turned k, Outcome.turned r.capacity k id (reserveWithin fuel r length).2) := by
  induction fuel generalizing r with
  | zero => rfl
  | succ fuel ih =>
    have hcrowded : (r.turned k).Crowded length (r.turned k).image.start ↔ r.Crowded length r.image.start := by
      rw [crowded_start, crowded_start, load_turned h.toOpens, capacity_turned]
    by_cases hfull : r.Crowded length r.image.start
    · rw [reserveWithin_of_crowded (h.turned k) fuel (hcrowded.2 hfull), reserveWithin_of_crowded h fuel hfull,
        evict_turned h, evict_eq h]
      by_cases hempty : r.image.start = r.image.stop
      · simp only [if_pos hempty]
        rfl
      · simp only [if_neg hempty]
        cases hframe : r.frameAt r.image.start r.image.stop with
        | error stop => rfl
        | ok frame =>
          have hnext := ih (h.drop frame)
          rw [capacity_drop] at hnext
          exact hnext
    · rw [reserveWithin_of_room (h.turned k) fuel (mt hcrowded.1 hfull), reserveWithin_of_room h fuel hfull]
      rfl

/-- **Making room.** The same records are dropped. -/
theorem makeRoom_turned (h : r.Sound) (k payload : Nat) :
    (r.turned k).makeRoom payload
      = ((r.makeRoom payload).1.turned k, Outcome.turned r.capacity k id (r.makeRoom payload).2) := by
  have hcapacity := capacity_turned k r
  by_cases hfits : frameLength payload < r.capacity
  · rw [makeRoom_of_fits hfits, makeRoom_of_fits (hcapacity.symm ▸ hfits), reserve, reserve, hcapacity]
    exact reserveWithin_turned h k _ _
  · rw [makeRoom_of_not_fits hfits, makeRoom_of_not_fits (hcapacity.symm ▸ hfits), hcapacity]
    rfl

/-! ### Appending -/

theorem placed_turned (h : r.image.Opens r.capacity) (hfits : frameLength data.length < r.capacity) (k : Nat) :
    (r.turned k).placed data = (r.placed data).turned r.capacity k := by
  have hparts := frameLength_eq data.length
  have hheader : (Varint.encode data.length).length = Varint.size data.length :=
    Varint.length_encode (h.lt_bound (by omega))
  have hprefix : (Varint.encode data.length).length ≤ r.capacity := by omega
  have hprefixed := h.turned_scatter (Circle.turn_mod r.capacity k r.image.stop) hprefix
  rw [hheader] at hprefixed
  have hopens := h.scatter r.image.stop hprefix
  rw [hheader] at hopens
  have hlaid := hopens.turned_scatter (Circle.turn_add_mod r.capacity k r.image.stop (Varint.size data.length))
    (show data.length ≤ r.capacity by omega)
  have hplaced :=
    (hopens.scatter (r.image.stop + Varint.size data.length) (show data.length ≤ r.capacity by omega)).turned_setStop k
    (Nat.mod_lt (r.image.stop + frameLength data.length) h.pos)
  simp only [placed, image_turned, capacity_turned, h.stop_turned, hprefixed, hlaid, Circle.turn_add]
  exact hplaced

theorem append_turned (h : r.Sound) (k : Nat) (payload : Bytes) :
    (r.turned k).append payload
      = ((r.append payload).1.turned k, Outcome.turned r.capacity k id (r.append payload).2) := by
  have hsame := same_makeRoom h payload.length
  rw [append_eq (h.turned k), append_eq h, makeRoom_turned h]
  rcases hroom : r.makeRoom payload.length with ⟨r₁, stop | ⟨⟩⟩
  · rfl
  · simp only [hroom] at hsame
    have hfits := hsame.capacity ▸ fits_of_makeRoom hroom
    have hplaced := placed_turned hsame.sound.toOpens hfits k
    simp only [Outcome.turned, hplaced]
    rfl

theorem startWrite_turned (h : r.Sound) (k total : Nat) :
    Writer.start (r.turned k) total
      = ((Writer.start r total).1.turned k,
        Outcome.turned r.capacity k (Writer.turned r.capacity k) (Writer.start r total).2) := by
  have hsame := same_makeRoom h total
  rw [Writer.start_eq (h.turned k), Writer.start_eq h, makeRoom_turned h]
  rcases hroom : r.makeRoom total with ⟨r₁, stop | ⟨⟩⟩
  · rfl
  · simp only [hroom] at hsame
    simp only [Outcome.turned, Writer.behind, Writer.turned, capacity_turned, stop_turned hsame.sound.toOpens,
      hsame.capacity, List.length_nil, Nat.add_zero, Circle.turn_add]

theorem put_turned (h : r.Sound) (k : Nat) (hwriter : writer.InRange r.capacity) (chunk : Bytes) :
    (writer.turned r.capacity k).put (r.turned k) chunk
      = Outcome.turned r.capacity k (fun found => (found.1.turned k, found.2.turned r.capacity k))
        (writer.put r chunk) := by
  have hrange := writer_turned k hwriter
  rw [Writer.put_eq (opens_turned h.toOpens k) hrange, Writer.put_eq h.toOpens hwriter]
  by_cases hlong : writer.remaining < chunk.length
  · rw [if_pos hlong]
    exact if_pos hlong
  · have hparts := frameLength_eq writer.total
    have hfits := hwriter.fits
    have hremaining := hwriter.remaining_le
    have hlaid := h.turned_scatter (Circle.turn_mod r.capacity k writer.next) (show chunk.length ≤ r.capacity by omega)
    rw [if_neg hlong, if_neg (show ¬(writer.turned r.capacity k).remaining < chunk.length from hlong)]
    simp only [Outcome.turned, Writer.turned, image_turned, capacity_turned, cursor_turned, hlaid, Circle.turn_add]
    rw [turned]

theorem finishWrite_turned (h : r.Sound) (k : Nat) (hwriter : writer.InRange r.capacity) :
    (writer.turned r.capacity k).finish (r.turned k)
      = Outcome.turned r.capacity k (Ring.turned k) (writer.finish r) := by
  have hrange := writer_turned k hwriter
  rw [Writer.finish_eq (opens_turned h.toOpens k) hrange, Writer.finish_eq h.toOpens hwriter]
  by_cases hmissing : writer.remaining ≠ 0
  · rw [if_pos hmissing]
    exact if_pos hmissing
  · have hparts := frameLength_eq writer.total
    have hfits := hwriter.fits
    have hheader : (Varint.encode writer.total).length = Varint.size writer.total :=
      Varint.length_encode (h.lt_bound (by omega))
    have hprefix : (Varint.encode writer.total).length ≤ r.capacity := by omega
    have hlaid := h.turned_scatter (Circle.turn_mod r.capacity k writer.offset) hprefix
    have hopens := h.scatter writer.offset hprefix
    rw [hheader] at hlaid hopens
    have hplaced := hopens.turned_setStop k (Nat.mod_lt (writer.offset + frameLength writer.total) h.pos)
    rw [if_neg hmissing, if_neg (show ¬(writer.turned r.capacity k).remaining ≠ 0 from hmissing)]
    simp only [Outcome.turned, Writer.turned, image_turned, capacity_turned, cursor_turned, hlaid,
      Circle.turn_add, hplaced]
    rw [turned]

/-! ### Records in pieces -/

theorem ahead_turned (h : r.image.Opens r.capacity) (k : Nat) (reader : Reader) (length : Nat) :
    (reader.turned r.capacity k).ahead (r.turned k) length = reader.ahead r length := by
  have hbytes := rotate_turned h k reader.frame.offset (reader.frame.header + reader.consumed)
  rw [← Nat.add_assoc, ← Nat.add_assoc] at hbytes
  exact congrArg (List.take length) hbytes

theorem take_turned (h : r.Sound) (k : Nat) (hreader : reader.InRange r.capacity) (length : Nat) :
    (reader.turned r.capacity k).take (r.turned k) length
      = ((reader.take r length).1, Outcome.turned r.capacity k (Reader.turned r.capacity k)
        (reader.take r length).2) := by
  have hrange := reader_turned k hreader
  rw [Reader.take_eq (opens_turned h.toOpens k) hrange, Reader.take_eq h.toOpens hreader, ahead_turned h.toOpens]
  rfl

theorem takeExact_turned (h : r.Sound) (k : Nat) (hreader : reader.InRange r.capacity) (length : Nat) :
    (reader.turned r.capacity k).takeExact (r.turned k) length
      = ((reader.takeExact r length).1.turned r.capacity k, (reader.takeExact r length).2) := by
  have hrange := reader_turned k hreader
  rw [Reader.takeExact_eq (opens_turned h.toOpens k) hrange, Reader.takeExact_eq h.toOpens hreader,
    ahead_turned h.toOpens]
  rfl

theorem takeAll_turned (h : r.Sound) (k : Nat) (hreader : reader.InRange r.capacity) :
    (reader.turned r.capacity k).takeAll (r.turned k)
      = ((reader.takeAll r).1.turned r.capacity k, (reader.takeAll r).2) := by
  have hrange := reader_turned k hreader
  rw [Reader.takeAll_eq (opens_turned h.toOpens k) hrange, Reader.takeAll_eq h.toOpens hreader, ahead_turned h.toOpens]
  rfl

theorem finishRead_turned (h : r.Sound) (k : Nat) (hreader : reader.InRange r.capacity) :
    (reader.turned r.capacity k).finish (r.turned k)
      = Outcome.turned r.capacity k (Ring.turned k) (reader.finish r) := by
  have hrange := reader_turned k hreader
  have hcursor := Circle.turn_add r.capacity k reader.frame.offset reader.frame.length
  rw [Reader.finish_eq (opens_turned h.toOpens k) hrange, Reader.finish_eq h.toOpens hreader]
  simp only [Outcome.turned, Reader.turned, Frame.turned, image_turned, capacity_turned]
  rw [turned]
  exact congrArg
    (fun cursor => Except.ok ({ image := r.image.turned r.capacity k, capacity := r.capacity, cursor } : Ring)) hcursor

theorem rewind_turned (h : r.Sound) (k : Nat) : (r.turned k).rewind = r.rewind.turned k := by
  have hstart := start_turned h.toOpens k
  simp only [rewind, turned] at hstart ⊢
  rw [hstart]

/-! ### Whatever is asked -/

theorem map_turned {α β : Type} (capacity k : Nat) (value : α → β) (result : Outcome α) :
    (Outcome.turned capacity k id result).map value = Outcome.turned capacity k id (result.map value) := by
  cases result <;> rfl

/-- what a request does to a free handle -/
theorem act_free_turned (h : r.Sound) (k : Nat) (request : Session.Request) :
    request.act (r.turned k) none = (request.act r none).map fun found =>
      (found.1.turned k, found.2.1.map (Stream.turned r.capacity k), Outcome.turned r.capacity k id found.2.2) := by
  cases request with
  | rewind name =>
    rw [Session.Request.act, rewind_turned h]
    rfl
  | record name =>
    rw [Session.Request.act, record_turned h, after_turned, map_turned]
    rfl
  | read name buffer =>
    rw [Session.Request.act, read_turned h, after_turned, map_turned]
    rfl
  | append name payload =>
    rw [Session.Request.act, append_turned h, map_turned]
    rfl
  | startWrite name total =>
    rw [Session.Request.act, Session.Request.act, startWrite_turned h]
    rcases hstart : Writer.start r total with ⟨next, stop | writer⟩ <;> rfl
  | startRead name =>
    rw [Session.Request.act, Session.Request.act, startRead_turned h]
    rcases hstart : Reader.start r with stop | _ | reader <;> rfl
  | _ => rfl

/-- **Whatever is asked.** What it does to a ring that has been turned is what it does to the ring itself, turned. -/
theorem act_turned (h : r.Sound) (k : Nat) (hwas : ∀ stream ∈ was, stream.InRange r.capacity)
    (request : Session.Request) :
    request.act (r.turned k) (was.map (Stream.turned r.capacity k)) = (request.act r was).map fun found =>
      (found.1.turned k, found.2.1.map (Stream.turned r.capacity k), Outcome.turned r.capacity k id found.2.2) := by
  rcases was with _ | writer | reader
  · exact act_free_turned h k request
  · have hwriter : writer.InRange r.capacity := hwas _ rfl
    rw [Option.map_some, Stream.turned]
    cases request with
    | put chunk =>
      rw [Session.Request.act, Session.Request.act, put_turned h k hwriter]
      rcases writer.put r chunk with stop | ⟨next, written⟩ <;> rfl
    | finish =>
      rw [Session.Request.act, Session.Request.act, Session.Request.conclude, Session.Request.conclude,
        finishWrite_turned h k hwriter]
      rcases writer.finish r with stop | next <;> rfl
    | _ => rfl
  · have hreader : reader.InRange r.capacity := hwas _ rfl
    rw [Option.map_some, Stream.turned]
    cases request with
    | take length =>
      rw [Session.Request.act, Session.Request.act, take_turned h k hreader]
      rcases reader.take r length with ⟨delivered, stop | taken⟩ <;> rfl
    | takeExact length =>
      rw [Session.Request.act, Session.Request.act, takeExact_turned h k hreader, Reader.takeExact_eq h.toOpens hreader]
      rfl
    | takeAll =>
      rw [Session.Request.act, Session.Request.act, takeAll_turned h k hreader, Reader.takeAll_eq h.toOpens hreader]
      rfl
    | finish =>
      rw [Session.Request.act, Session.Request.act, Session.Request.conclude, Session.Request.conclude,
        finishRead_turned h k hreader]
      rcases reader.finish r with stop | next <;> rfl
    | _ => rfl

end Turned

end Ring

end CircularLog
