/-
What it is for a ring to hold records: from the start offset to the stop offset lie their frames, each with the shortest
prefix, on whatever bytes there were. `Ring.Holds` is kept by every operation, and the list of records is the queue's.

- `Image.Leads.frameAt`, `Image.Leads.record`, `Image.Leads.drainFrom`: what lies in front of the cursor is read, in
  order, whatever follows it.
- `Image.Lies.drain`: and when nothing follows it, the reading ends there.
- `Ring.Holds.makeRoom`: room is made by dropping as many records as `Queue.room` drops.
- `Ring.Holds.append`: a record that fits is appended behind those that are left.
-/
import CircularLog.Proofs.Eviction
import CircularLog.Proofs.Queue

namespace CircularLog

/-! ## Fronts of the circle -/

theorem prefix_rotate {front back bytes : Bytes} (h : front ++ back <+: bytes) :
    back <+: bytes.rotate front.length := by
  obtain ⟨rest, rfl⟩ := h
  rw [List.append_assoc, List.rotate_append_length_eq, List.append_assoc]
  exact List.prefix_append _ _

/-- what is laid behind a front goes on with it -/
theorem prefix_lay (data : Bytes) {front bytes : Bytes} {position : Nat} (h : front <+: bytes)
    (hposition : position = front.length) :
    front ++ data <+: lay bytes position data := by
  obtain ⟨rest, rfl⟩ := h
  rw [lay, hposition, List.take_append_length]
  exact List.prefix_append _ _

/-- what is laid behind a front does not change it -/
theorem prefix_lay_of_le {front data bytes : Bytes} {position : Nat} (h : front <+: bytes)
    (hfront : front.length ≤ position) (hposition : position ≤ bytes.length) : front <+: lay bytes position data := by
  rw [List.prefix_iff_eq_take, take_lay hfront hposition]
  exact List.prefix_iff_eq_take.1 h

/-- what is laid over a gap in a front fills it -/
theorem prefix_lay_gap {front gap back data bytes : Bytes} {position : Nat} (h : front ++ gap ++ back <+: bytes)
    (hposition : position = front.length) (hgap : data.length = gap.length) :
    front ++ data ++ back <+: lay bytes position data := by
  obtain ⟨rest, rfl⟩ := h
  rw [List.append_assoc (front ++ gap), hposition, lay_append hgap, ← List.append_assoc]
  exact List.prefix_append _ _

/-! ## Records in front of the stop offset -/

/-- from the offset on lie these records, up to the stop offset or a place in front of it -/
structure Image.Leads (image : Image) (capacity offset : Nat) (records : List Bytes) : Prop where
  weight_le : weight records ≤ Circle.way capacity offset image.stop
  framed_front : framed records <+: image.circle.rotate offset

section Frames

variable {image : Image} {capacity offset : Nat} {payload : Bytes} {records : List Bytes}

/-- the bytes of the first record -/
theorem framed_head (hlength : payload.length < Word.bound)
    (hfront : framed (payload :: records) <+: image.circle.rotate offset) :
    (image.circle.rotate (offset + Varint.size payload.length)).take payload.length = payload := by
  have hframe : Varint.encode payload.length ++ payload <+: image.circle.rotate offset :=
    (List.prefix_append _ _).trans hfront
  have hpayload := prefix_rotate hframe
  rw [Varint.length_encode hlength, List.rotate_rotate] at hpayload
  exact (List.prefix_iff_eq_take.1 hpayload).symm

/-- the frames behind the first -/
theorem framed_tail (hopens : image.Opens capacity) (hlength : payload.length < Word.bound)
    (hfront : framed (payload :: records) <+: image.circle.rotate offset) :
    framed records <+: image.circle.rotate ((offset + frameLength payload.length) % capacity) := by
  have hrest := prefix_rotate hfront
  rwa [length_encode_frame hlength, List.rotate_rotate, ← hopens.rotate_mod] at hrest

end Frames

namespace Image.Leads

section Leads

variable {image : Image} {r : Ring} {capacity offset : Nat} {payload : Bytes} {records : List Bytes}

theorem payload_lt (hopens : image.Opens capacity) (hoffset : offset < capacity)
    (h : image.Leads capacity offset (payload :: records)) : payload.length < Word.bound := by
  have hweight := h.weight_le
  have hway : Circle.way capacity offset image.stop < capacity := Circle.way_lt hoffset
  have hparts := frameLength_eq payload.length
  rw [weight_cons] at hweight
  exact hopens.lt_bound (by omega)

/-- the records behind the first -/
theorem tail (hopens : image.Opens capacity) (hoffset : offset < capacity)
    (h : image.Leads capacity offset (payload :: records)) :
    image.Leads capacity ((offset + frameLength payload.length) % capacity) records where
  weight_le := by
    have hweight := h.weight_le
    rw [weight_cons] at hweight
    rw [Circle.way_add_left hoffset hopens.stop_lt (by omega)]
    omega
  framed_front := framed_tail hopens (payload_lt hopens hoffset h) h.framed_front

/-- the prefix is read whole, whatever follows the frame -/
theorem frameAt (hopens : r.image.Opens r.capacity) (hoffset : offset < r.capacity)
    (h : r.image.Leads r.capacity offset (payload :: records)) :
    r.frameAt offset r.image.stop
      = .ok { offset, header := Varint.size payload.length, payload := payload.length } := by
  have hlength := payload_lt hopens hoffset h
  obtain ⟨rest, hrest⟩ := h.framed_front
  have hweight := h.weight_le
  have hparts := frameLength_eq payload.length
  have hmax := Varint.size_le_maxSize hlength
  rw [weight_cons] at hweight
  rw [Ring.frameAt_eq hopens hoffset hopens.stop_lt, ← hrest, framed_cons, List.append_assoc,
    decode_frame hlength _ (by omega)]
  exact if_neg (by omega)

/-- a cursor in front of the records reads the first of them -/
theorem record (hsound : r.Sound) (h : r.image.Leads r.capacity r.cursor (payload :: records)) :
    r.record
      = .ok ({ r with cursor := (r.cursor + frameLength payload.length) % r.capacity }, some payload) := by
  have hne : r.cursor ≠ r.image.stop := by
    have hweight := h.weight_le
    have hpos := frameLength_pos payload.length
    rw [weight_cons] at hweight
    rw [ne_eq, ← Circle.way_eq_zero_iff hsound.cursor_lt hsound.stop_lt]
    omega
  rw [Ring.record_eq hsound, if_neg hne, frameAt hsound.toOpens hsound.cursor_lt h]
  simp only [framed_head (payload_lt hsound.toOpens hsound.cursor_lt h) h.framed_front]
  rfl

/-- reading on reads them one after another, and goes on behind them -/
theorem drainFrom (hsound : r.Sound) (h : r.image.Leads r.capacity r.cursor records) (taken : List Bytes)
    (count : Nat) :
    r.drainFrom (records.length + count) taken
      = ({ r with cursor := (r.cursor + weight records) % r.capacity } : Ring).drainFrom count
        (records.reverse ++ taken) := by
  induction records generalizing r taken with
  | nil =>
    have hcursor : (r.cursor + weight []) % r.capacity = r.cursor := Nat.mod_eq_of_lt hsound.cursor_lt
    simp only [hcursor, List.length_nil, Nat.zero_add, List.reverse_nil, List.nil_append]
  | cons payload records ih =>
    have hnext : ({ r with cursor := (r.cursor + frameLength payload.length) % r.capacity } : Ring).Sound :=
      ⟨hsound.toOpens, Nat.mod_lt _ hsound.pos⟩
    have hcount : (payload :: records).length + count = records.length + count + 1 := by
      rw [List.length_cons]
      omega
    rw [hcount, Ring.drainFrom, record hsound h]
    simp only
    rw [ih hnext (h.tail hsound.toOpens hsound.cursor_lt) (payload :: taken)]
    simp only [Nat.mod_add_mod, Nat.add_assoc, weight_cons, List.reverse_cons, List.append_assoc, List.singleton_append]

end Leads

end Image.Leads

/-! ## Records on the circle -/

/-- from the offset to the stop offset lie these records -/
structure Image.Lies (image : Image) (capacity offset : Nat) (records : List Bytes) : Prop where
  weight_lt : weight records < capacity
  stop_eq : (offset + weight records) % capacity = image.stop
  framed_front : framed records <+: image.circle.rotate offset

namespace Image.Lies

section Lies

variable {image other : Image} {r : Ring} {capacity offset : Nat} {payload : Bytes} {records : List Bytes}

/-- only the data and the stop offset matter -/
theorem congr (h : image.Lies capacity offset records) (hcircle : other.circle = image.circle)
    (hstop : other.stop = image.stop) : other.Lies capacity offset records where
  weight_lt := h.weight_lt
  stop_eq := h.stop_eq.trans hstop.symm
  framed_front := hcircle ▸ h.framed_front

theorem way_eq (h : image.Lies capacity offset records) (hoffset : offset < capacity) :
    Circle.way capacity offset image.stop = weight records := by
  rw [← h.stop_eq]
  exact Circle.way_add hoffset h.weight_lt

theorem eq_stop_iff (h : image.Lies capacity offset records) (hoffset : offset < capacity)
    (hstop : image.stop < capacity) :
    offset = image.stop ↔ records = [] := by
  rw [← Circle.way_eq_zero_iff hoffset hstop, h.way_eq hoffset, weight_eq_zero_iff]

theorem payload_lt (hopens : image.Opens capacity) (h : image.Lies capacity offset (payload :: records)) :
    payload.length < Word.bound := by
  have hweight := h.weight_lt
  have hparts := frameLength_eq payload.length
  rw [weight_cons] at hweight
  exact hopens.lt_bound (by omega)

theorem length_framed (hopens : image.Opens capacity) (h : image.Lies capacity offset records) :
    (framed records).length = weight records :=
  CircularLog.length_framed (hopens.lt_bound h.weight_lt)

/-- the records behind the first -/
theorem tail (hopens : image.Opens capacity) (h : image.Lies capacity offset (payload :: records)) :
    image.Lies capacity ((offset + frameLength payload.length) % capacity) records where
  weight_lt := by
    have hweight := h.weight_lt
    rw [weight_cons] at hweight
    omega
  stop_eq := by
    rw [Nat.mod_add_mod, Nat.add_assoc, ← weight_cons, h.stop_eq]
  framed_front := framed_tail hopens (payload_lt hopens h) h.framed_front

/-- the first record -/
theorem head (hopens : image.Opens capacity) (h : image.Lies capacity offset (payload :: records)) :
    (image.circle.rotate (offset + Varint.size payload.length)).take payload.length = payload :=
  framed_head (payload_lt hopens h) h.framed_front

theorem leads (h : image.Lies capacity offset records) (hoffset : offset < capacity) :
    image.Leads capacity offset records :=
  ⟨(h.way_eq hoffset).ge, h.framed_front⟩

theorem frameAt (hopens : r.image.Opens r.capacity) (hoffset : offset < r.capacity)
    (h : r.image.Lies r.capacity offset (payload :: records)) :
    r.frameAt offset r.image.stop
      = .ok { offset, header := Varint.size payload.length, payload := payload.length } :=
  (h.leads hoffset).frameAt hopens hoffset

/-- a cursor in front of the records reads the first of them -/
theorem record (hsound : r.Sound) (h : r.image.Lies r.capacity r.cursor (payload :: records)) :
    r.record
      = .ok ({ r with cursor := (r.cursor + frameLength payload.length) % r.capacity }, some payload) :=
  (h.leads hsound.cursor_lt).record hsound

/-- reading on from a cursor in front of the records gives these records and then nothing -/
theorem drain (hsound : r.Sound) (h : r.image.Lies r.capacity r.cursor records) {count : Nat}
    (hcount : records.length < count) :
    r.drain count = ({ r with cursor := r.image.stop }, records, .exhausted) := by
  obtain ⟨more, rfl⟩ := Nat.exists_eq_add_of_lt hcount
  -- behind the records the cursor is at the stop offset
  have hend : ({ r with cursor := r.image.stop } : Ring).Sound := ⟨hsound.toOpens, hsound.stop_lt⟩
  have hlast : ({ r with cursor := r.image.stop } : Ring).record = .ok ({ r with cursor := r.image.stop }, none) := by
    rw [Ring.record_eq hend]
    exact if_pos rfl
  rw [Ring.drain, Nat.add_assoc, (h.leads hsound.cursor_lt).drainFrom hsound, h.stop_eq, Ring.drainFrom, hlast]
  simp only [List.append_nil, List.reverse_reverse]

end Lies

end Image.Lies

/-! ## Rings that hold records -/

/-- a file opens by its length and its control block -/
theorem Image.Opens.of_head {image other : Image} {capacity : Nat} (h : image.Opens capacity)
    (hsize : other.size = image.size) (hhead : other.head = image.head) : other.Opens capacity where
  size := hsize.trans h.size
  bounded := hsize.trans_le h.bounded
  marked := by rw [← Image.mark_head, hhead, Image.mark_head, h.marked]
  start_lt := (Image.start_congr hhead).trans_lt h.start_lt
  stop_lt := (Image.stop_congr hhead).trans_lt h.stop_lt

/-- the records of the ring, oldest first -/
structure Ring.Holds (r : Ring) (records : List Bytes) : Prop extends r.Sound where
  lies : r.image.Lies r.capacity r.image.start records

namespace Ring.Holds

section Holds

variable {r r₁ : Ring} {payload : Bytes} {records : List Bytes} {length : Nat}

theorem load_eq (h : r.Holds records) : r.load = weight records := h.lies.way_eq h.start_lt

theorem crowded_iff (h : r.Holds records) : r.Crowded length r.image.start ↔ ¬weight records + length < r.capacity := by
  have hweight := h.lies.weight_lt
  rw [crowded_start, h.load_eq]
  omega

theorem stop_mod (h : r.Holds records) : r.image.stop % r.capacity = (r.image.start + weight records) % r.capacity := by
  rw [h.lies.stop_eq, Nat.mod_eq_of_lt h.stop_lt]

/-- a cursor at the oldest record reads all of them -/
theorem drain (h : r.Holds records) (hfresh : r.cursor = r.image.start) {count : Nat}
    (hcount : records.length < count) :
    r.drain count = ({ r with cursor := r.image.stop }, records, .exhausted) := by
  have hlies := h.lies
  rw [← hfresh] at hlies
  exact hlies.drain h.toSound hcount

/-! ### Dropping -/

/-- the oldest record goes, and the others stay -/
theorem evict (h : r.Holds (payload :: records)) :
    ∃ r₁, r.evict = (r₁, .ok ()) ∧ Same r r₁ ∧ r₁.Holds records := by
  have hne : r.image.start ≠ r.image.stop := by
    intro heq
    have hnil := (h.lies.eq_stop_iff h.start_lt h.stop_lt).1 heq
    exact List.cons_ne_nil _ _ hnil
  have hframe := Image.Lies.frameAt h.toOpens h.start_lt h.lies
  have hsame : Same r (r.drop { offset := r.image.start, header := Varint.size payload.length
                                payload := payload.length }) := (Same.refl h.toSound).drop _
  refine ⟨_, ?_, hsame, hsame.sound, ?_⟩
  · rw [evict_eq h.toSound, if_neg hne, hframe]
  · rw [start_drop h.toSound, hsame.capacity]
    exact (h.lies.tail h.toOpens).congr hsame.circle hsame.stop

/-- the loop drops what `Queue.room` drops -/
theorem reserveWithin (h : r.Holds records) (hlength : length < r.capacity) {fuel : Nat}
    (hfuel : records.length < fuel) :
    ∃ r₁, Ring.reserveWithin fuel r length = (r₁, .ok ()) ∧ Same r r₁
      ∧ r₁.Holds (Queue.room r.capacity length records) := by
  induction records generalizing r fuel with
  | nil =>
    obtain ⟨fuel, rfl⟩ := Nat.exists_eq_succ_of_ne_zero (Nat.ne_of_gt hfuel)
    have hroom : ¬r.Crowded length r.image.start := by
      rw [h.crowded_iff]
      simpa using hlength
    exact ⟨r, reserveWithin_of_room h.toSound fuel hroom, Same.refl h.toSound, h⟩
  | cons payload records ih =>
    obtain ⟨fuel, rfl⟩ := Nat.exists_eq_succ_of_ne_zero (Nat.ne_of_gt (Nat.zero_lt_of_lt hfuel))
    by_cases hfits : weight (payload :: records) + length < r.capacity
    · have hroom : ¬r.Crowded length r.image.start := by
        rw [h.crowded_iff]
        exact not_not.2 hfits
      rw [Queue.room_of_lt hfits]
      exact ⟨r, reserveWithin_of_room h.toSound fuel hroom, Same.refl h.toSound, h⟩
    · obtain ⟨r₁, hevict, hsame, hholds⟩ := h.evict
      obtain ⟨r₂, hreserve, hsame', hholds'⟩ := ih hholds (hsame.capacity ▸ hlength) (by simpa using hfuel)
      rw [hsame.capacity] at hholds'
      rw [Queue.room_cons_of_not_lt hfits, reserveWithin_of_crowded h.toSound fuel (h.crowded_iff.2 hfits), hevict]
      exact ⟨r₂, hreserve, hsame.trans hsame', hholds'⟩

theorem makeRoom (h : r.Holds records) {total : Nat} (hfits : frameLength total < r.capacity) :
    ∃ r₁, r.makeRoom total = (r₁, .ok ()) ∧ Same r r₁
      ∧ r₁.Holds (Queue.room r.capacity (frameLength total) records) := by
  have hcount : records.length < r.capacity + 2 := by
    have hle := length_le_weight records
    have hweight := h.lies.weight_lt
    omega
  rw [makeRoom_of_fits hfits]
  exact h.reserveWithin hfits hcount

/-! ### Appending -/

/-- bytes laid behind the records change neither the records nor the control block -/
theorem scatter (h : r.Holds records) (data : Bytes) {offset k : Nat}
    (hplace : offset % r.capacity = (r.image.start + k) % r.capacity) (hbehind : weight records ≤ k)
    (hfree : k + data.length ≤ r.capacity) :
    ({ r with image := Region.scatter r.image (Region.stretch r.capacity offset data.length) data } : Ring).Holds
      records
      ∧ (Region.scatter r.image (Region.stretch r.capacity offset data.length) data).start = r.image.start
      ∧ (Region.scatter r.image (Region.stretch r.capacity offset data.length) data).stop = r.image.stop
      ∧ (Region.scatter r.image (Region.stretch r.capacity offset data.length) data).circle.rotate r.image.start
          = lay (r.image.circle.rotate r.image.start) k data := by
  have hlength : data.length ≤ r.capacity := by omega
  obtain ⟨hsize, hhead, -⟩ := Region.scatter_stretch offset h.size h.pos hlength
  have hstart := Image.start_congr hhead
  have hstop := Image.stop_congr hhead
  have hlaid := Region.circle_scatter h.size h.pos hplace hfree
  have hlies : (Region.scatter r.image (Region.stretch r.capacity offset data.length) data).Lies r.capacity
      r.image.start records :=
    { weight_lt := h.lies.weight_lt
      stop_eq := h.lies.stop_eq.trans hstop.symm
      framed_front := by
        rw [hlaid]
        apply prefix_lay_of_le h.lies.framed_front
        · rwa [Image.Lies.length_framed h.toOpens h.lies]
        · rw [h.length_rotate]
          omega }
  refine ⟨⟨⟨h.toOpens.of_head hsize hhead, h.cursor_lt⟩, ?_⟩, hstart, hstop, hlaid⟩
  rw [← hstart] at hlies
  exact hlies

/-- a frame that was laid behind the records is one of them when the stop offset has moved behind it -/
theorem setStop (h : r.Holds records) (hfits : weight records + frameLength payload.length < r.capacity)
    (hfront : framed records ++ Frame.encode payload <+: r.image.circle.rotate r.image.start) :
    ({ r with image := r.image.setStop ((r.image.stop + frameLength payload.length) % r.capacity) } : Ring).Holds
      (records ++ [payload]) := by
  have hplace : (r.image.stop + frameLength payload.length) % r.capacity < r.capacity := Nat.mod_lt _ h.pos
  have hweight : weight (records ++ [payload]) = weight records + frameLength payload.length := by
    rw [weight_append, weight_cons, weight_nil, Nat.add_zero]
  have hlies : (r.image.setStop ((r.image.stop + frameLength payload.length) % r.capacity)).Lies r.capacity
      r.image.start (records ++ [payload]) :=
    { weight_lt := by rwa [hweight]
      stop_eq := by
        rw [Image.stop_setStop h.block_le (h.lt_bound hplace), hweight, ← Nat.add_assoc, ← h.lies.stop_eq,
          Nat.mod_add_mod]
      framed_front := by
        rw [Image.circle_setStop h.block_le, framed_append, framed_cons, framed_nil, List.append_nil]
        exact hfront }
  refine ⟨⟨h.toOpens.setStop hplace, h.cursor_lt⟩, ?_⟩
  rw [← Image.start_setStop h.block_le] at hlies
  exact hlies

/-- the record is placed behind the others, on whatever there was -/
theorem place (h : r.Holds records) (hfits : weight records + frameLength payload.length < r.capacity) :
    (r.place
      { header := Region.stretch r.capacity r.image.stop (Varint.size payload.length)
        payload := Region.stretch r.capacity (r.image.stop + Varint.size payload.length) payload.length
        next := (r.image.stop + frameLength payload.length) % r.capacity } payload).Holds (records ++ [payload]) := by
  have hparts := frameLength_eq payload.length
  have hheader : (Varint.encode payload.length).length = Varint.size payload.length :=
    Varint.length_encode (h.lt_bound (by omega))
  have hlength := Image.Lies.length_framed h.toOpens h.lies
  have hplace : (r.image.stop + Varint.size payload.length) % r.capacity
      = (r.image.start + (weight records + Varint.size payload.length)) % r.capacity := calc
    (r.image.stop + Varint.size payload.length) % r.capacity
        = (r.image.start + weight records + Varint.size payload.length) % r.capacity :=
      Nat.ModEq.add_right _ h.stop_mod
    _ = (r.image.start + (weight records + Varint.size payload.length)) % r.capacity := by rw [Nat.add_assoc]
  -- first the prefix
  obtain ⟨h₁, hstart₁, hstop₁, hlaid₁⟩ := h.scatter (Varint.encode payload.length) h.stop_mod le_rfl (by omega)
  rw [hheader] at h₁ hstart₁ hstop₁ hlaid₁
  have hfront₁ := prefix_lay (Varint.encode payload.length) h.lies.framed_front hlength.symm
  rw [← hlaid₁] at hfront₁
  -- then the bytes behind it
  rw [← hstart₁] at hplace hfront₁
  obtain ⟨h₂, hstart₂, hstop₂, hlaid₂⟩ := h₁.scatter payload hplace (by omega) (by simp only; omega)
  have hposition : weight records + Varint.size payload.length
      = (framed records ++ Varint.encode payload.length).length := by
    rw [List.length_append, hlength, hheader]
  have hfront₂ := prefix_lay payload hfront₁ hposition
  rw [← hlaid₂, ← hstart₂, List.append_assoc] at hfront₂
  have hholds := h₂.setStop hfits hfront₂
  simp only [hstop₂, hstop₁] at hholds
  exact hholds

@[simp] theorem capacity_place (r : Ring) (vacancy : Vacancy) (payload : Bytes) :
    (r.place vacancy payload).capacity = r.capacity := by
  simp only [Ring.place]

theorem append (h : r.Holds records) (hfits : frameLength payload.length < r.capacity) :
    ∃ r₁, r.append payload = (r₁, .ok ()) ∧ r₁.capacity = r.capacity
      ∧ r₁.Holds (Queue.room r.capacity (frameLength payload.length) records ++ [payload]) := by
  obtain ⟨r₁, hroom, hsame, hholds⟩ := h.makeRoom hfits
  have hweight := Queue.weight_room hfits records
  rw [← hsame.capacity] at hfits hweight hholds
  have hplaced := hholds.place hweight
  refine ⟨_, append_of_room hroom hholds.toOpens hfits, ?_, ?_⟩
  · rw [capacity_place, hsame.capacity]
  · rw [← hsame.capacity]
    exact hplaced

end Holds

end Ring.Holds

end CircularLog
