/-
The operations on a ring file whose data may be anything. As long as the offsets lie on the circle they stay on it, and
an operation gives its value or one of a few refusals: no sum, difference or place that it computes is out of range.

- `Frame.InRange`, `Reader.InRange`, `Writer.InRange`: what is kept of a record in pieces, whatever happens to the
  bytes.
- `Ring.frameAt_error`, `Ring.makeRoom_cases`: why there is no frame, and why there is no room.
- `Ring.read_eq`, `Ring.append_eq`, `Writer.put_eq`, `Writer.finish_eq`, `Reader.take_eq`, `Reader.takeAll_eq`,
  `Reader.finish_eq`: the operations as they are where everything is in range.
-/
import CircularLog.Proofs.Writing

namespace CircularLog

/-- the refusal says that no frame can be read here: its prefix does not decode, or its record goes too far -/
inductive Refusal.Corrupt : Refusal → Prop
  | prefixed (offset : Nat) (e : Varint.Error) : Corrupt (.undecodableLength offset e)
  | extended (offset payload : Nat) : Corrupt (.frameTooLong offset payload)

/-- the kind under which the caller is told, whatever the path -/
def Refusal.kind (refusal : Refusal) : Report.Kind := (refusal.report none).kind

theorem Refusal.kind_report (refusal : Refusal) (path : Option Path) : (refusal.report path).kind = refusal.kind := by
  cases refusal <;> rfl

theorem Refusal.Corrupt.kind_eq {refusal : Refusal} (h : refusal.Corrupt) : refusal.kind = .corruptFrame := by
  cases h <;> rfl

/-- a frame on the circle, whose record leaves a byte of it free -/
structure Frame.InRange (frame : Frame) (capacity : Nat) : Prop where
  offset_lt : frame.offset < capacity
  header_le : frame.header ≤ Varint.maxSize
  payload_lt : frame.payload < capacity

structure Reader.InRange (reader : Reader) (capacity : Nat) : Prop where
  frame : reader.frame.InRange capacity
  consumed_le : reader.consumed ≤ reader.frame.payload

structure Writer.InRange (writer : Writer) (capacity : Nat) : Prop where
  offset_lt : writer.offset < capacity
  next_lt : writer.next < capacity
  remaining_le : writer.remaining ≤ writer.total
  fits : frameLength writer.total < capacity

theorem forall_mem_none {α : Type} {p : α → Prop} : ∀ a ∈ (none : Option α), p a :=
  fun a ha => absurd ha (Option.not_mem_none a)

/-! ## Reading bytes -/

/-- two stretches of the circle, one behind the other, are one -/
theorem take_rotate_append {bytes : Bytes} {place first second : Nat} (h : first + second ≤ bytes.length) :
    (bytes.rotate place).take first ++ (bytes.rotate (place + first)).take second
      = (bytes.rotate place).take (first + second) := by
  rw [← List.length_rotate bytes place] at h
  rw [← List.rotate_rotate, List.take_add]
  generalize bytes.rotate place = turned at h ⊢
  have hsecond : second ≤ (turned.drop first).length := by
    rw [List.length_drop]
    omega
  rw [List.rotate_eq_drop_append_take (by omega), List.take_append_of_le_length hsecond]

/-- a transfer of this many bytes is refused, or all of it is among the data -/
def Region.Within (capacity length : Nat) : Outcome (List Segment) → Prop
  | .ok segments =>
    (∀ segment ∈ segments, Span.base ≤ segment.position
        ∧ segment.position + segment.length ≤ Span.base + capacity)
      ∧ (segments.map (·.length)).sum = length
  | .error stop => capacity < length ∧ stop = .refused (.transferTooLong length)

namespace Image.Opens

variable {image : Image} {capacity offset : Nat} {data : Bytes}

/-- bytes that are laid on the circle leave the control block alone -/
theorem scatter (h : image.Opens capacity) (offset : Nat) (hlength : data.length ≤ capacity) :
    (Region.scatter image (Region.stretch capacity offset data.length) data).Opens capacity := by
  obtain ⟨hsize, hhead, -⟩ := Region.scatter_stretch offset h.size h.pos hlength
  exact h.of_head hsize hhead

theorem locate_within (h : image.Opens capacity) (offset length : Nat) :
    Region.Within capacity length (Region.locate capacity offset length) := by
  by_cases hlong : capacity < length
  · rw [Region.locate, Region.span, if_pos hlong]
    exact ⟨hlong, rfl⟩
  · rw [h.locate_eq offset (Nat.le_of_not_lt hlong), Region.stretch]
    have hplace : offset % capacity < capacity := Nat.mod_lt _ h.pos
    split
    · refine ⟨?_, by simp⟩
      simp only [List.mem_singleton, forall_eq]
      omega
    · refine ⟨?_, ?_⟩
      · simp only [List.mem_cons, List.not_mem_nil, or_false, forall_eq_or_imp, forall_eq]
        omega
      · simp only [List.map_cons, List.map_nil, List.sum_cons, List.sum_nil]
        omega

end Image.Opens

namespace Ring

section InRange

variable {r r₁ : Ring} {offset stop consumed length payload total : Nat} {frame : Frame} {data chunk : Bytes}

theorem frameAt_in_range (h : r.image.Opens r.capacity) (hoffset : offset < r.capacity) (hstop : stop < r.capacity)
    (hframe : r.frameAt offset stop = .ok frame) : frame.InRange r.capacity := by
  obtain ⟨hplace, -, -, hheader, -, -⟩ := frameAt_ok h hoffset hstop hframe
  exact ⟨hplace ▸ hoffset, hheader, payload_le h hoffset hstop hframe⟩

theorem frameAt_error (hsize : r.image.size = ControlBlock.size + r.capacity) (hfile : r.image.size ≤ Image.maxSize)
    (hoffset : offset < r.capacity) (hstop : stop < r.capacity) {reason : Stop}
    (hframe : r.frameAt offset stop = .error reason) : ∃ refusal, reason = .refused refusal ∧ refusal.Corrupt := by
  rw [frameAt_eq_of_size hsize hfile hoffset hstop] at hframe
  split at hframe
  · exact ⟨_, (Except.error.inj hframe).symm, .prefixed _ _⟩
  · split at hframe
    · exact ⟨_, (Except.error.inj hframe).symm, .extended _ _⟩
    · cases hframe

/-- the end of a frame is a number of 64 bits -/
theorem end_lt_bound (h : r.image.Opens r.capacity) (hframe : frame.InRange r.capacity) :
    frame.offset + frame.length < Word.bound := by
  have hcapacity := h.capacity_lt
  have hoffset := hframe.offset_lt
  have hheader := hframe.header_le
  have hpayload := hframe.payload_lt
  simp only [Frame.length, Word.bound, Varint.maxSize] at *
  omega

theorem readPayload_eq_ok (h : r.image.Opens r.capacity) (hframe : frame.InRange r.capacity)
    (hlength : consumed + length ≤ frame.payload) :
    r.readPayload frame consumed length
      = ((r.image.circle.rotate (frame.offset + frame.header + consumed)).take length, .ok ()) := by
  have hend := end_lt_bound h hframe
  have hpayload := hframe.payload_lt
  rw [Frame.length] at hend
  have hheader : Word.add frame.offset frame.header = .ok (frame.offset + frame.header) := Word.add_eq_ok (by omega)
  have hsum : Word.add (frame.offset + frame.header) consumed = .ok (frame.offset + frame.header + consumed) :=
    Word.add_eq_ok (by omega)
  simp only [readPayload, hheader, hsum, bind, Except.bind]
  exact Region.read_eq_ok h.size h.bounded h.pos (by omega)

/-- reading into a buffer: there is no record, its frame is not accepted, it is too long, or the cursor passes it -/
theorem read_eq (h : r.Sound) (buffer : Bytes) :
    r.read buffer
      = if r.cursor = r.image.stop then (buffer, .ok (r, none))
        else match r.frameAt r.cursor r.image.stop with
          | .error stop => (buffer, .error stop)
          | .ok frame =>
            if buffer.length < frame.payload then (buffer, refuse (.bufferTooSmall frame.offset frame.payload))
            else (fill buffer ((r.image.circle.rotate (r.cursor + frame.header)).take frame.payload),
              .ok (r.pass frame, some frame.payload)) := by
  by_cases hend : r.cursor = r.image.stop
  · simp only [read, next, if_pos hend, pure, Except.pure]
  · rw [if_neg hend]
    cases hframe : r.frameAt r.cursor r.image.stop with
    | error stop => simp only [read, next, if_neg hend, hframe, Functor.map, Except.map]
    | ok frame =>
      simp only [read, next, if_neg hend, hframe, Functor.map, Except.map, readPayload_eq h hframe,
        skip_eq h hframe, bind, Except.bind, pure, Except.pure]

theorem start_eq (r : Ring) :
    Reader.start r
      = if r.cursor = r.image.stop then .ok none
        else match r.frameAt r.cursor r.image.stop with
          | .error stop => .error stop
          | .ok frame => .ok (some { frame }) := by
  by_cases hend : r.cursor = r.image.stop
  · simp only [Reader.start, next, if_pos hend, bind, Except.bind, pure, Except.pure, Option.map_none]
  · rw [if_neg hend]
    cases hframe : r.frameAt r.cursor r.image.stop with
    | error stop => simp only [Reader.start, next, if_neg hend, hframe, Functor.map, Except.map, bind, Except.bind]
    | ok frame =>
      simp only [Reader.start, next, if_neg hend, hframe, Functor.map, Except.map, bind, Except.bind, pure, Except.pure,
        Option.map_some]

/-! ## Asking the ring -/

theorem usage_eq_ok (h : r.image.Opens r.capacity) :
    ∃ usage, r.usage = .ok usage ∧ usage.used < r.capacity ∧ usage.used + usage.available = r.capacity := by
  have hload := load_lt h
  have hcapacity := h.capacity_lt
  have hsize : Word.add ControlBlock.size r.capacity = .ok (ControlBlock.size + r.capacity) := by
    apply Word.add_eq_ok
    simp only [ControlBlock.size, Span.base, Word.bound]
    omega
  have hfree : Word.sub r.capacity r.load = .ok (r.capacity - r.load) := Word.sub_eq_ok hload.le
  simp only [usage, used_eq h, hsize, hfree, bind, Except.bind, pure, Except.pure]
  exact ⟨_, rfl, hload, Nat.add_sub_cancel' hload.le⟩

theorem nextSize_error (h : r.Sound) {reason : Stop} (hnext : r.nextSize = .error reason) :
    ∃ refusal, reason = .refused refusal ∧ refusal.Corrupt := by
  by_cases hend : r.cursor = r.image.stop
  · simp [nextSize, next, hend, bind, Except.bind, pure, Except.pure] at hnext
  · cases hframe : r.frameAt r.cursor r.image.stop with
    | error found =>
      obtain rfl : found = reason := by
        simpa [nextSize, next, hend, hframe, bind, Except.bind, Functor.map, Except.map] using hnext
      exact frameAt_error h.size h.bounded h.cursor_lt h.stop_lt hframe
    | ok frame =>
        simp [nextSize, next, hend, hframe, bind, Except.bind, pure, Except.pure, Functor.map, Except.map] at hnext

/-! ## Making room and appending -/

/-- there is room, or why there is none -/
theorem reserveWithin_cases (h : r.Sound) (hfits : length < r.capacity) (fuel : Nat) :
    (reserveWithin fuel r length).2 = .ok () ∨ (reserveWithin fuel r length).2 = .error (.fault .endless)
      ∨ ∃ refusal, (reserveWithin fuel r length).2 = .error (.refused refusal) ∧ refusal.Corrupt := by
  induction fuel generalizing r with
  | zero => exact Or.inr (Or.inl rfl)
  | succ fuel ih =>
    by_cases hcrowded : r.Crowded length r.image.start
    · have hne := start_ne_stop_of_crowded h hfits hcrowded h.start_lt
      rw [reserveWithin_of_crowded h fuel hcrowded, evict_eq h, if_neg hne]
      cases hframe : r.frameAt r.image.start r.image.stop with
      | error stop =>
        obtain ⟨refusal, rfl, hcorrupt⟩ := frameAt_error h.size h.bounded h.start_lt h.stop_lt hframe
        exact Or.inr (Or.inr ⟨refusal, rfl, hcorrupt⟩)
      | ok frame => exact ih (h.drop frame) (by rwa [capacity_drop])
    · rw [reserveWithin_of_room h fuel hcrowded]
      exact Or.inl rfl

/-- room for a record: it fits and there is room, it is too long, or the records in its way cannot be dropped -/
theorem makeRoom_cases (h : r.Sound) (payload : Nat) :
    (frameLength payload < r.capacity ∧ (r.makeRoom payload).2 = .ok ())
      ∨ (¬frameLength payload < r.capacity ∧ r.makeRoom payload = (r, refuse (.recordTooLarge r.capacity payload)))
      ∨ (r.makeRoom payload).2 = .error (.fault .endless)
      ∨ ∃ refusal, (r.makeRoom payload).2 = .error (.refused refusal) ∧ refusal.Corrupt := by
  by_cases hfits : frameLength payload < r.capacity
  · rw [makeRoom_of_fits hfits]
    rcases reserveWithin_cases h hfits (r.capacity + 2) with hok | hendless | hcorrupt
    · exact Or.inl ⟨hfits, hok⟩
    · exact Or.inr (Or.inr (Or.inl hendless))
    · exact Or.inr (Or.inr (Or.inr hcorrupt))
  · exact Or.inr (Or.inl ⟨hfits, makeRoom_of_not_fits hfits⟩)

/-- there is room only for a record that fits -/
theorem fits_of_makeRoom (hroom : r.makeRoom payload = (r₁, .ok ())) : frameLength payload < r.capacity := by
  by_contra hlong
  rw [makeRoom_of_not_fits hlong] at hroom
  cases (Prod.mk.inj hroom).2

/-- the image with the record behind the newest one -/
def placed (r : Ring) (payload : Bytes) : Image :=
  let image := Region.scatter r.image (Region.stretch r.capacity r.image.stop (Varint.size payload.length))
    (Varint.encode payload.length)
  (Region.scatter image (Region.stretch r.capacity (r.image.stop + Varint.size payload.length) payload.length)
    payload).setStop ((r.image.stop + frameLength payload.length) % r.capacity)

theorem opens_placed (h : r.image.Opens r.capacity) (hfits : frameLength data.length < r.capacity) :
    (r.placed data).Opens r.capacity := by
  have hparts := frameLength_eq data.length
  have hheader : (Varint.encode data.length).length = Varint.size data.length :=
    Varint.length_encode (h.lt_bound (by omega))
  have hprefixed := h.scatter r.image.stop (show (Varint.encode data.length).length ≤ r.capacity by omega)
  rw [hheader] at hprefixed
  exact (hprefixed.scatter _ (by omega)).setStop (Nat.mod_lt _ h.pos)

/-- appending is making room and placing the record -/
theorem append_eq (h : r.Sound) (payload : Bytes) :
    r.append payload
      = match r.makeRoom payload.length with
        | (r, .error stop) => (r, .error stop)
        | (r, .ok ()) => ({ r with image := r.placed payload }, .ok ()) := by
  have hsame := same_makeRoom h payload.length
  rcases hroom : r.makeRoom payload.length with ⟨r₁, stop | ⟨⟩⟩
  · exact append_of_stop hroom
  · simp only [hroom] at hsame
    have hfits := fits_of_makeRoom hroom
    rw [append_of_room hroom hsame.sound.toOpens (hsame.capacity ▸ hfits)]
    rfl

end InRange

end Ring

/-! ## A record that is being written -/

namespace Writer

section InRange

variable {r : Ring} {writer : Writer} {total : Nat} {chunk : Bytes}

/-- a writer begins where there is room for its record -/
theorem start_eq (h : r.Sound) (total : Nat) :
    Writer.start r total
      = match r.makeRoom total with
        | (r, .error stop) => (r, .error stop)
        | (r, .ok ()) => (r, .ok (Writer.behind r total [])) := by
  have hsame := Ring.same_makeRoom h total
  rcases hroom : r.makeRoom total with ⟨r₁, stop | ⟨⟩⟩
  · exact Ring.start_of_stop hroom
  · simp only [hroom] at hsame
    have hfits := Ring.fits_of_makeRoom hroom
    simp only [Ring.start_of_room hroom hsame.sound.toOpens (hsame.capacity ▸ hfits), behind, List.length_nil,
      Nat.add_zero, Nat.sub_zero]

theorem behind_in_range (h : r.image.Opens r.capacity) (hfits : frameLength total < r.capacity) (written : Bytes) :
    (Writer.behind r total written).InRange r.capacity where
  offset_lt := h.stop_lt
  next_lt := Nat.mod_lt _ h.pos
  remaining_le := Nat.sub_le _ _
  fits := hfits

theorem put_eq (h : r.image.Opens r.capacity) (hwriter : writer.InRange r.capacity) (chunk : Bytes) :
    writer.put r chunk
      = if writer.remaining < chunk.length then refuse (.chunkTooLong chunk.length writer.remaining writer.total)
        else .ok
          ({ r with image := Region.scatter r.image (Region.stretch r.capacity writer.next chunk.length) chunk },
            { writer with
              next := (writer.next + chunk.length) % r.capacity
              remaining := writer.remaining - chunk.length }) := by
  by_cases hlong : writer.remaining < chunk.length
  · simp only [put, if_pos hlong, refuse, bind, Except.bind]
  · rw [if_neg hlong]
    have hparts := frameLength_eq writer.total
    have hfits := hwriter.fits
    have hremaining := hwriter.remaining_le
    have hshort : chunk.length ≤ r.capacity := by omega
    by_cases hempty : chunk.isEmpty
    · obtain rfl : chunk = [] := List.isEmpty_iff.1 hempty
      have hnext := Nat.mod_eq_of_lt hwriter.next_lt
      simp only [put, bind, Except.bind, pure, Except.pure, List.length_nil, Nat.add_zero, Nat.sub_zero, hnext]
      rfl
    · simp only [put, if_neg hlong, if_neg hempty, Region.write, h.locate_eq _ hshort,
        h.advance_eq hwriter.next_lt hshort, bind, Except.bind, pure, Except.pure]

theorem finish_eq (h : r.image.Opens r.capacity) (hwriter : writer.InRange r.capacity) :
    writer.finish r
      = if writer.remaining ≠ 0 then refuse (.unfinished writer.remaining writer.total)
        else .ok { r with
          image := (Region.scatter r.image (Region.stretch r.capacity writer.offset (Varint.size writer.total))
            (Varint.encode writer.total)).setStop ((writer.offset + frameLength writer.total) % r.capacity) } := by
  by_cases hmissing : writer.remaining ≠ 0
  · simp only [finish, if_pos hmissing, refuse, bind, Except.bind]
  · have hparts := frameLength_eq writer.total
    have hfits := hwriter.fits
    have hheader : (Varint.encode writer.total).length = Varint.size writer.total :=
      Varint.length_encode (h.lt_bound (by omega))
    have hlocate := h.locate_eq writer.offset (show Varint.size writer.total ≤ r.capacity by omega)
    have hadvance := h.advance_eq hwriter.offset_lt hfits.le
    have hmod : Word.mod ((writer.offset + frameLength writer.total) % r.capacity) r.capacity
        = .ok ((writer.offset + frameLength writer.total) % r.capacity) := by
      rw [Word.mod_eq_ok (Nat.ne_of_gt h.pos), Nat.mod_mod]
    simp only [finish, if_neg hmissing, Region.write, hheader, hlocate, hadvance, hmod, bind, Except.bind, pure,
      Except.pure]

end InRange

end Writer

/-! ## A record that is being read -/

namespace Reader

section InRange

variable {r : Ring} {reader : Reader} {length : Nat} {taken : Bytes}

/-- the bytes of the record from its `consumed`-th on, as they stand on the circle -/
def ahead (reader : Reader) (r : Ring) (length : Nat) : Bytes :=
  (r.image.circle.rotate (reader.frame.offset + reader.frame.header + reader.consumed)).take length

theorem take_eq (h : r.image.Opens r.capacity) (hreader : reader.InRange r.capacity) (length : Nat) :
    reader.take r length
      = (reader.ahead r (min reader.remaining length),
        .ok { reader with consumed := reader.consumed + min reader.remaining length }) := by
  have hlength : reader.consumed + min reader.remaining length ≤ reader.frame.payload := by
    have := hreader.consumed_le
    simp only [remaining, total]
    omega
  by_cases hzero : min reader.remaining length = 0
  · rw [take, if_pos hzero, hzero, ahead, List.take_zero, Nat.add_zero]
  · simp only [take, if_neg hzero, Ring.readPayload_eq_ok h hreader.frame hlength, ahead, bind, Except.bind, pure,
      Except.pure]

/-- a reader further on in the record -/
theorem InRange.take (h : reader.InRange r.capacity) (length : Nat) :
    ({ reader with consumed := reader.consumed + min reader.remaining length } : Reader).InRange r.capacity where
  frame := h.frame
  consumed_le := by
    have := h.consumed_le
    simp only [remaining, total]
    omega

theorem length_ahead (h : r.image.Opens r.capacity) (hreader : reader.InRange r.capacity)
    (hlength : length ≤ reader.remaining) : (reader.ahead r length).length = length := by
  have hpayload := hreader.frame.payload_lt
  simp only [remaining, total] at hlength
  rw [ahead, List.length_take, List.length_rotate, h.length_circle]
  omega

theorem takeExact_eq (h : r.image.Opens r.capacity) (hreader : reader.InRange r.capacity) (length : Nat) :
    reader.takeExact r length
      = ({ reader with consumed := reader.consumed + min reader.remaining length },
        .ok (if reader.remaining < length then none else some (reader.ahead r length))) := by
  rw [takeExact, take_eq h hreader]
  simp only [length_ahead h hreader (Nat.min_le_left _ _)]
  by_cases hshort : reader.remaining < length
  · rw [if_pos hshort, if_pos (by omega)]
  · rw [if_neg hshort, if_neg (by omega), Nat.min_eq_right (Nat.le_of_not_lt hshort)]

/-- a piece, and behind it what is left -/
theorem ahead_append (h : r.image.Opens r.capacity) (hreader : reader.InRange r.capacity) {step : Nat}
    (hstep : step ≤ reader.remaining) :
    reader.ahead r step
        ++ ({ reader with consumed := reader.consumed + step } : Reader).ahead r (reader.remaining - step)
      = reader.ahead r reader.remaining := by
  have hpayload := hreader.frame.payload_lt
  have hsum : step + (reader.remaining - step) = reader.remaining := by omega
  rw [ahead, ahead, ← Nat.add_assoc, take_rotate_append, hsum, ahead]
  rw [h.length_circle, hsum, remaining, total]
  omega

/-- the pieces that are read one after another are the rest of the record -/
theorem takePieces_eq (h : r.image.Opens r.capacity) (hreader : reader.InRange r.capacity) {fuel : Nat}
    (hfuel : reader.remaining < fuel) (taken : Bytes) :
    takePieces r fuel reader taken
      = ({ reader with consumed := reader.frame.payload }, .ok (taken ++ reader.ahead r reader.remaining)) := by
  induction fuel generalizing reader taken with
  | zero => cases hfuel
  | succ fuel ih =>
    have hconsumed := hreader.consumed_le
    by_cases hend : reader.remaining = 0
    · have hall : reader.consumed = reader.frame.payload := by
        simp only [remaining, total] at hend
        omega
      rw [takePieces, if_pos hend, hend, ahead, List.take_zero, List.append_nil, ← hall]
    · obtain ⟨step, hstep⟩ : ∃ step, step = min reader.remaining (max 32 taken.length) := ⟨_, rfl⟩
      have hstep_pos : 0 < step := by omega
      have hnext := hreader.take (max 32 taken.length)
      have hleft : ({ reader with consumed := reader.consumed + step } : Reader).remaining
          = reader.remaining - step := by
        simp only [remaining, total]
        omega
      have hbytes := ahead_append h hreader (show step ≤ reader.remaining by omega)
      rw [takePieces, if_neg hend, take_eq h hreader, ← hstep]
      rw [← hstep] at hnext
      simp only
      rw [ih hnext (by rw [hleft]; omega), hleft, List.append_assoc, hbytes]

theorem takeAll_eq (h : r.image.Opens r.capacity) (hreader : reader.InRange r.capacity) :
    reader.takeAll r
      = ({ reader with consumed := reader.frame.payload }, .ok (reader.ahead r reader.remaining)) := by
  rw [takeAll, takePieces_eq h hreader (Nat.lt_succ_self _), List.nil_append]

theorem finish_eq (h : r.image.Opens r.capacity) (hreader : reader.InRange r.capacity) :
    reader.finish r = .ok { r with cursor := (reader.frame.offset + reader.frame.length) % r.capacity } := by
  have hadvance := Circle.advance_eq_ok h.pos (Ring.end_lt_bound h hreader.frame)
  have hmod := Word.mod_eq_ok (a := (reader.frame.offset + reader.frame.length) % r.capacity) (Nat.ne_of_gt h.pos)
  simp only [finish, Ring.skip, hadvance, hmod, bind, Except.bind, pure, Except.pure, Nat.mod_mod]

end InRange

end Reader

end CircularLog
