/-
Which frames are accepted. A length prefix is read from the bytes in front of `stop`, ten of them at most, and the
record that it states is held against `stop` behind the shortest prefix of its length. What is wanted, `Ring.Validates`,
is that it be held against `stop` behind the prefix that was read.

- `Ring.frameAt_ok_iff`, `Ring.frameAt_corrupt`: the frames that are accepted, and what the others come to.
- `Ring.validates_iff`: the check is as it should be at a place, exactly if no record there fits behind the shortest
  prefix alone.
- `frame_check_exact_iff`: both, for whatever data, places and capacity.
- `frame_past_stop_accepted`: a file that opens, on which a frame goes on behind the stop offset.
-/
import CircularLog.Proofs.Ranges

namespace CircularLog

namespace Ring

/-- the bytes that a length prefix is read from, where so many are in front of the end: the first ten, or all of them -/
def peek (r : Ring) (offset available : Nat) : Bytes :=
  (r.image.circle.rotate offset).take (min available Varint.maxSize)

/-- a prefix decodes at the place, and it and the record behind it take no more than `available` bytes -/
def Frames (r : Ring) (offset available : Nat) (frame : Frame) : Prop :=
  frame.offset = offset ∧ Varint.decode (r.peek offset available) = .ok (frame.payload, frame.header)
    ∧ frame.header + frame.payload ≤ available

/-- the frame at the place is found as it should be, when there are `available` bytes from there to `stop` -/
structure Validates (r : Ring) (offset stop available : Nat) : Prop where
  accepts : ∀ frame, r.frameAt offset stop = .ok frame ↔ r.Frames offset available frame
  refuses : (∀ frame, ¬r.Frames offset available frame) →
    ∃ refusal, r.frameAt offset stop = .error (.refused refusal) ∧ refusal.kind = .corruptFrame
  /-- whatever goes behind the frame comes to `stop` or to a place before it -/
  lands : ∀ frame, r.frameAt offset stop = .ok frame →
    ∃ next left, Circle.advance r.capacity offset frame.length = .ok next
      ∧ Circle.distance r.capacity next stop = .ok left ∧ left + frame.length = available

/-- a prefix decodes at the place that is longer than it needs to be, and its record fits behind the shortest one
alone -/
def Overruns (r : Ring) (offset available : Nat) : Prop :=
  ∃ payload header, Varint.decode (r.peek offset available) = .ok (payload, header) ∧ frameLength payload ≤ available
    ∧ available < header + payload

section Accepting

variable {r : Ring} {offset stop available : Nat} {frame : Frame}

/-- a frame is accepted exactly if its prefix decodes and its record fits behind the shortest prefix -/
theorem frameAt_ok_iff (hsize : r.image.size = ControlBlock.size + r.capacity) (hfile : r.image.size ≤ Image.maxSize)
    (hoffset : offset < r.capacity) (hstop : stop < r.capacity) :
    r.frameAt offset stop = .ok frame
      ↔ frame.offset = offset
        ∧ Varint.decode (r.peek offset (Circle.way r.capacity offset stop)) = .ok (frame.payload, frame.header)
        ∧ frameLength frame.payload ≤ Circle.way r.capacity offset stop := by
  rw [frameAt_eq_of_size hsize hfile hoffset hstop, ← peek]
  cases hdecode : Varint.decode (r.peek offset (Circle.way r.capacity offset stop)) with
  | error e => simp [refuse]
  | ok found =>
    obtain ⟨payload, header⟩ := found
    by_cases hlong : Circle.way r.capacity offset stop < frameLength payload
    · simp only [if_pos hlong, refuse]
      constructor
      · intro haccepted
        cases haccepted
      · rintro ⟨-, hfound, hfits⟩
        obtain ⟨rfl, -⟩ := Prod.mk.inj (Except.ok.inj hfound)
        exact absurd hlong (Nat.not_lt_of_le hfits)
    · simp only [if_neg hlong]
      constructor
      · intro haccepted
        obtain rfl := Except.ok.inj haccepted
        exact ⟨rfl, rfl, Nat.le_of_not_lt hlong⟩
      · rintro ⟨rfl, hfound, -⟩
        obtain ⟨rfl, rfl⟩ := Prod.mk.inj (Except.ok.inj hfound)
        rfl

/-- anything else is a corrupt frame -/
theorem frameAt_corrupt (hsize : r.image.size = ControlBlock.size + r.capacity) (hfile : r.image.size ≤ Image.maxSize)
    (hoffset : offset < r.capacity) (hstop : stop < r.capacity) (hnone : ∀ frame, r.frameAt offset stop ≠ .ok frame) :
    ∃ refusal, r.frameAt offset stop = .error (.refused refusal) ∧ refusal.kind = .corruptFrame := by
  cases hframe : r.frameAt offset stop with
  | error reason =>
    obtain ⟨refusal, rfl, hcorrupt⟩ := frameAt_error hsize hfile hoffset hstop hframe
    exact ⟨refusal, rfl, hcorrupt.kind_eq⟩
  | ok frame => exact absurd hframe (hnone frame)

/-- a frame that ends at `stop` or before it leaves the rest of the way -/
theorem lands_of_le (hfile : ControlBlock.size + r.capacity ≤ Image.maxSize) (hoffset : offset < r.capacity)
    (hstop : stop < r.capacity) (hlength : frame.length ≤ Circle.way r.capacity offset stop) :
    ∃ next left, Circle.advance r.capacity offset frame.length = .ok next
      ∧ Circle.distance r.capacity next stop = .ok left ∧ left + frame.length = Circle.way r.capacity offset stop := by
  have hpos : 0 < r.capacity := Nat.zero_lt_of_lt hoffset
  have hway : Circle.way r.capacity offset stop < r.capacity := Circle.way_lt hoffset
  have hsum : offset + frame.length < Word.bound := by
    simp only [Word.bound, Image.maxSize] at hfile ⊢
    omega
  have hleft : Circle.way r.capacity ((offset + frame.length) % r.capacity) stop
      = Circle.way r.capacity offset stop - frame.length := Circle.way_add_left hoffset hstop hlength
  refine ⟨_, _, Circle.advance_eq_ok hpos hsum, Circle.distance_eq_way (Nat.mod_lt _ hpos) hstop, ?_⟩
  rw [hleft]
  exact Nat.sub_add_cancel hlength

theorem validates_iff (hsize : r.image.size = ControlBlock.size + r.capacity) (hfile : r.image.size ≤ Image.maxSize)
    (hoffset : offset < r.capacity) (hstop : stop < r.capacity) :
    r.Validates offset stop (Circle.way r.capacity offset stop)
      ↔ ¬r.Overruns offset (Circle.way r.capacity offset stop) := by
  constructor
  · rintro hvalidates ⟨payload, header, hdecode, hfits, hpast⟩
    have haccepted : r.frameAt offset stop = .ok { offset, header, payload } :=
      (frameAt_ok_iff hsize hfile hoffset hstop).2 ⟨rfl, hdecode, hfits⟩
    obtain ⟨-, -, hwithin⟩ := (hvalidates.accepts _).1 haccepted
    exact absurd hpast (Nat.not_lt_of_le hwithin)
  · intro hnone
    have haccepts : ∀ frame, r.frameAt offset stop = .ok frame
        ↔ r.Frames offset (Circle.way r.capacity offset stop) frame := by
      intro frame
      rw [frameAt_ok_iff hsize hfile hoffset hstop, Frames]
      constructor
      · rintro ⟨hplace, hdecode, hfits⟩
        exact ⟨hplace, hdecode, Nat.le_of_not_lt fun hpast => hnone ⟨_, _, hdecode, hfits, hpast⟩⟩
      · rintro ⟨hplace, hdecode, hwithin⟩
        -- the shortest prefix is no longer than the one that was read
        have hshortest := (Varint.decode_ok hdecode).2.2.2
        refine ⟨hplace, hdecode, ?_⟩
        rw [frameLength_eq]
        omega
    refine ⟨haccepts, ?_, ?_⟩
    · intro hall
      exact frameAt_corrupt hsize hfile hoffset hstop fun frame haccepted => hall frame ((haccepts frame).1 haccepted)
    · intro frame haccepted
      exact lands_of_le (hsize ▸ hfile) hoffset hstop ((haccepts frame).1 haccepted).2.2

end Accepting

end Ring

/-! ## Whatever the data -/

/-- **When the check of a frame is exact.** For whatever data and control block, and places on the circle: a frame is
accepted exactly if its prefix decodes from the bytes in front of `stop` and its record fits there behind the shortest
prefix of its length, and is corrupt in every other case. This is the check that is wanted, and whatever goes behind an
accepted frame does not step past `stop`, exactly if no record fits behind the shortest prefix alone. -/
theorem frame_check_exact_iff {r : Ring} {offset stop available : Nat}
    (hsize : r.image.size = ControlBlock.size + r.capacity) (hfile : r.image.size ≤ Image.maxSize)
    (hoffset : offset < r.capacity) (hstop : stop < r.capacity)
    (havailable : Circle.distance r.capacity offset stop = .ok available) :
    (∀ frame, r.frameAt offset stop = .ok frame
        ↔ frame.offset = offset ∧ Varint.decode (r.peek offset available) = .ok (frame.payload, frame.header)
          ∧ frameLength frame.payload ≤ available)
      ∧ ((∀ frame, r.frameAt offset stop ≠ .ok frame) →
        ∃ refusal, r.frameAt offset stop = .error (.refused refusal) ∧ refusal.kind = .corruptFrame)
      ∧ (r.Validates offset stop available ↔ ¬r.Overruns offset available) := by
  rw [Circle.distance_eq_way hoffset hstop] at havailable
  obtain rfl := Except.ok.inj havailable
  exact ⟨fun _ => Ring.frameAt_ok_iff hsize hfile hoffset hstop, Ring.frameAt_corrupt hsize hfile hoffset hstop,
    Ring.validates_iff hsize hfile hoffset hstop⟩

/-- a record of two bytes behind a prefix of two that goes on over the end of the data, right up to the stop offset -/
def straddlingFile : FileSystem := .single 7 3 [0x00, 0xAA, 0xBB, 0xFF, 0xFF, 0xFF, 0xFF, 0x82]

theorem frame_check_exact_straddling :
    ((singleHandle.ring straddlingFile).image.size = ControlBlock.size + 8
        ∧ (singleHandle.ring straddlingFile).image.size ≤ Image.maxSize ∧ Circle.distance 8 7 3 = .ok 4)
      ∧ (singleHandle.ring straddlingFile).frameAt 7 3 = .ok { offset := 7, header := 2, payload := 2 }
      ∧ (singleHandle.ring straddlingFile).Validates 7 3 4 := by
  have hsize : (singleHandle.ring straddlingFile).image.size = ControlBlock.size + 8 := by decide
  have hfile : (singleHandle.ring straddlingFile).image.size ≤ Image.maxSize := by decide
  have havailable : Circle.distance 8 7 3 = .ok 4 := by decide
  have hoffset : 7 < (singleHandle.ring straddlingFile).capacity := by decide
  have hstop : 3 < (singleHandle.ring straddlingFile).capacity := by decide
  obtain ⟨haccepted, -, hexact⟩ := frame_check_exact_iff hsize hfile hoffset hstop havailable
  have hdecode : Varint.decode ((singleHandle.ring straddlingFile).peek 7 4) = .ok (2, 2) := by decide
  refine ⟨⟨hsize, hfile, havailable⟩, (haccepted _).2 ⟨rfl, hdecode, by decide⟩, hexact.2 ?_⟩
  rintro ⟨payload, header, hfound, -, hpast⟩
  obtain ⟨rfl, rfl⟩ := Prod.mk.inj (Except.ok.inj (hdecode.symm.trans hfound))
  omega

/-- from 0 to the stop offset at 3 there are three bytes, and a frame of four is accepted -/
theorem frame_past_stop_accepted :
    ∃ handle, Handle.openRing overlongFile FileSystem.singleName .append = .ok handle
      ∧ (overlongFile.image handle.node).size ≤ Image.maxSize ∧ Circle.distance handle.capacity 0 3 = .ok 3
      ∧ (handle.ring overlongFile).image.stop = 3
      ∧ (handle.ring overlongFile).frameAt 0 3 = .ok { offset := 0, header := 2, payload := 2 }
      ∧ ¬(handle.ring overlongFile).Validates 0 3 3 := by
  have haccepted : (singleHandle.ring overlongFile).frameAt 0 3 = .ok { offset := 0, header := 2, payload := 2 } := by
    decide
  refine ⟨singleHandle, by decide, by decide, by decide, by decide, haccepted, ?_⟩
  intro hvalidates
  obtain ⟨-, -, hwithin⟩ := (hvalidates.accepts _).1 haccepted
  exact absurd hwithin (by decide)

end CircularLog
