/-
The records that were ever committed, and where they are. A ring keeps only the newest of them and numbers none; but on
a ring that was empty at offset zero the offset of a record is the length of all frames before it, modulo the capacity,
and so an offset stands for an index.

- `Queue.log`: what has been committed; `Queue.step_suffix`: what is kept is a suffix of it.
- `Image.Marks`: the stop offset is the one behind the whole log; `Image.Marks.lies`, `Image.Marks.eq_offsetOf`: a
  handle is in front of the records from an index on exactly if its cursor is the offset of that index.
- `Ring.Holds.makeRoom_cursor`: the handle that makes room is never left in front of a record that is gone.
-/
import CircularLog.Proofs.Holding
import CircularLog.Proofs.Requests

namespace CircularLog

/-! ## What has been committed -/

namespace Queue

/-- the record that an event commits, if it commits one -/
def commit (capacity : Nat) (q : Queue) : Event → List Bytes
  | .append payload => if frameLength payload.length < capacity then [payload] else []
  | .finish =>
    match q.pending with
    | none => []
    | some (total, written) => if written.length = total then [written] else []
  | _ => []

/-- all that the events commit, in their order -/
def log (capacity : Nat) : Queue → List Event → List Bytes
  | _, [] => []
  | q, event :: rest => q.commit capacity event ++ log capacity (q.step capacity event).1 rest

section Log

variable {capacity : Nat} {q : Queue} {event : Event} {events more : List Event}

theorem run_append (capacity : Nat) (q : Queue) (events more : List Event) :
    (q.run capacity (events ++ more)).1 = ((q.run capacity events).1.run capacity more).1 := by
  induction events generalizing q with
  | nil => rfl
  | cons event events ih => exact ih _

theorem log_append (capacity : Nat) (q : Queue) (events more : List Event) :
    q.log capacity (events ++ more) = q.log capacity events ++ (q.run capacity events).1.log capacity more := by
  induction events generalizing q with
  | nil => rfl
  | cons event events ih =>
    rw [List.cons_append, log, log, ih, List.append_assoc]
    rfl

/-- some of the oldest records go, and the one that is committed comes -/
theorem step_records (capacity : Nat) (q : Queue) (event : Event) :
    ∃ left, left <:+ q.records ∧ (q.step capacity event).1.records = left ++ q.commit capacity event
      ∧ (¬event.begins → left = q.records) := by
  cases event with
  | append payload =>
    by_cases hfits : frameLength payload.length < capacity
    · refine ⟨_, room_suffix capacity (frameLength payload.length) q.records, ?_, fun h => absurd rfl h⟩
      simp only [step, commit, if_pos hfits]
    · refine ⟨_, List.suffix_rfl, ?_, fun _ => rfl⟩
      simp only [step, commit, if_neg hfits, List.append_nil]
  | start total =>
    by_cases hfits : frameLength total < capacity
    · refine ⟨_, room_suffix capacity (frameLength total) q.records, ?_, fun h => absurd rfl h⟩
      simp only [step, commit, if_pos hfits, List.append_nil]
    · refine ⟨_, List.suffix_rfl, ?_, fun _ => rfl⟩
      simp only [step, commit, if_neg hfits, List.append_nil]
  | put chunk =>
    refine ⟨_, List.suffix_rfl, ?_, fun _ => rfl⟩
    rcases q with ⟨records, _ | ⟨total, written⟩⟩
    · simp only [step, commit, List.append_nil]
    · simp only [step, commit, List.append_nil]
      split <;> rfl
  | finish =>
    refine ⟨_, List.suffix_rfl, ?_, fun _ => rfl⟩
    rcases q with ⟨records, _ | ⟨total, written⟩⟩
    · simp only [step, commit, List.append_nil]
    · by_cases hall : written.length = total
      · simp only [step, commit, if_pos hall]
      · simp only [step, commit, if_neg hall, List.append_nil]
  | leave => exact ⟨_, List.suffix_rfl, by simp only [step, commit, List.append_nil], fun _ => rfl⟩

theorem step_suffix {log : List Bytes} (h : q.records <:+ log) (event : Event) :
    (q.step capacity event).1.records <:+ log ++ q.commit capacity event := by
  obtain ⟨left, hleft, hrecords, -⟩ := step_records capacity q event
  obtain ⟨front, rfl⟩ := hleft.trans h
  rw [hrecords, List.append_assoc]
  exact List.suffix_append _ _

/-- how many records of the log are gone -/
def gone (q : Queue) (log : List Bytes) : Nat := log.length - q.records.length

theorem drop_gone {log : List Bytes} (h : q.records <:+ log) : log.drop (q.gone log) = q.records :=
  (List.suffix_iff_eq_drop.1 h).symm

/-- no record comes back, and only making room lets one go -/
theorem gone_step {log : List Bytes} (h : q.records <:+ log) (event : Event) :
    q.gone log ≤ (q.step capacity event).1.gone (log ++ q.commit capacity event)
      ∧ (¬event.begins → (q.step capacity event).1.gone (log ++ q.commit capacity event) = q.gone log) := by
  obtain ⟨left, hleft, hrecords, hkept⟩ := step_records capacity q event
  have hlength := hleft.length_le
  have hlog := h.length_le
  simp only [gone, hrecords, List.length_append]
  refine ⟨by omega, ?_⟩
  intro hbegins
  rw [hkept hbegins]
  omega

/-- no record comes back -/
theorem gone_run {log : List Bytes} (h : q.records <:+ log) (events : List Event) :
    q.gone log ≤ (q.run capacity events).1.gone (log ++ q.log capacity events) := by
  induction events generalizing q log with
  | nil =>
    rw [Queue.log, List.append_nil]
    exact le_rfl
  | cons event events ih =>
    rw [Queue.log, ← List.append_assoc]
    exact (gone_step h event).1.trans (ih (step_suffix h event))

theorem suffix_of_gone_le {log : List Bytes} {index : Nat} (h : q.records <:+ log) (hgone : q.gone log ≤ index) :
    log.drop index <:+ q.records := by
  apply List.suffix_of_suffix_length_le (List.drop_suffix _ _) h
  rw [gone] at hgone
  rw [List.length_drop]
  omega

/-- making room lets go what there is no room for -/
theorem gone_append {payload : Bytes} (log : List Bytes) (hfits : frameLength payload.length < capacity) :
    (q.step capacity (.append payload)).1.gone (log ++ q.commit capacity (.append payload))
      = log.length - (room capacity (frameLength payload.length) q.records).length := by
  simp only [gone, step, commit, if_pos hfits, List.length_append, List.length_singleton]
  omega

theorem gone_start {total : Nat} (log : List Bytes) (hfits : frameLength total < capacity) :
    (q.step capacity (.start total)).1.gone (log ++ q.commit capacity (.start total))
      = log.length - (room capacity (frameLength total) q.records).length := by
  simp only [gone, step, commit, if_pos hfits, List.append_nil]

end Log

end Queue

/-! ## Where the records are -/

theorem weight_drop (log : List Bytes) (index : Nat) :
    weight (log.take index) + weight (log.drop index) = weight log := by
  rw [← weight_append, List.take_append_drop]

/-- the stop offset is the one behind the log, when the first record of all was at offset zero -/
def Image.Marks (image : Image) (capacity : Nat) (log : List Bytes) : Prop := image.stop = weight log % capacity

/-- the offset of the record with this index -/
def offsetOf (capacity : Nat) (log : List Bytes) (index : Nat) : Nat := weight (log.take index) % capacity

theorem offsetOf_append {log more : List Bytes} {index : Nat} (capacity : Nat) (h : index ≤ log.length) :
    offsetOf capacity (log ++ more) index = offsetOf capacity log index := by
  simp only [offsetOf, List.take_append_of_le_length h]

namespace Image

section Places

variable {image : Image} {capacity offset other index : Nat} {front rest records log : List Bytes}

/-- two places in front of the same records are one -/
theorem Lies.offset_eq (h : image.Lies capacity offset rest) (h' : image.Lies capacity other rest)
    (hoffset : offset < capacity) (hother : other < capacity) : offset = other := by
  have hmod : offset + weight rest ≡ other + weight rest [MOD capacity] := h.stop_eq.trans h'.stop_eq.symm
  exact (Nat.ModEq.add_right_cancel' _ hmod).eq_of_lt_of_lt hoffset hother

/-- the records behind some others -/
theorem Lies.behind (hopens : image.Opens capacity) (hoffset : offset < capacity)
    (h : image.Lies capacity offset (front ++ rest)) :
    image.Lies capacity ((offset + weight front) % capacity) rest := by
  induction front generalizing offset with
  | nil => rwa [weight_nil, Nat.add_zero, Nat.mod_eq_of_lt hoffset]
  | cons payload front ih =>
    have hnext := ih (Nat.mod_lt _ hopens.pos) (h.tail hopens)
    rwa [Nat.mod_add_mod, Nat.add_assoc, ← weight_cons] at hnext

/-- a place is in front of the last records of all that are there if it is as far from the stop offset as they are
long -/
theorem Lies.of_suffix (hopens : image.Opens capacity) (h : image.Lies capacity offset records)
    (hoffset : offset < capacity)
    (hrest : rest <:+ records) (hother : other < capacity) (hstop : (other + weight rest) % capacity = image.stop) :
    image.Lies capacity other rest := by
  obtain ⟨front, rfl⟩ := hrest
  have hbehind := h.behind hopens hoffset
  have hmod : (offset + weight front) % capacity + weight rest ≡ other + weight rest [MOD capacity] :=
    hbehind.stop_eq.trans hstop.symm
  rwa [(Nat.ModEq.add_right_cancel' _ hmod).eq_of_lt_of_lt (Nat.mod_lt _ hopens.pos) hother] at hbehind

/-- the offset of an index is in front of the records from there on, if they are kept -/
theorem Marks.lies (h : image.Marks capacity log) (hopens : image.Opens capacity)
    (hlies : image.Lies capacity image.start records) (hrecords : records <:+ log)
    (hindex : log.length - records.length ≤ index) :
    image.Lies capacity (offsetOf capacity log index) (log.drop index) := by
  have hsuffix : log.drop index <:+ records := by
    rw [List.suffix_iff_eq_drop.1 hrecords]
    have hsplit : log.drop index
        = (log.drop (log.length - records.length)).drop (index - (log.length - records.length)) := by
      rw [List.drop_drop, Nat.add_sub_cancel' hindex]
    rw [hsplit]
    exact List.drop_suffix _ _
  apply hlies.of_suffix hopens hopens.start_lt hsuffix (Nat.mod_lt _ hopens.pos)
  rw [Nat.mod_add_mod, weight_drop]
  exact h.symm

/-- and only that offset is -/
theorem Marks.eq_offsetOf (h : image.Marks capacity log) (hlies : image.Lies capacity offset (log.drop index))
    (hoffset : offset < capacity) : offset = offsetOf capacity log index := by
  have hmod : offset + weight (log.drop index) ≡ weight (log.take index) + weight (log.drop index) [MOD capacity] := by
    rw [weight_drop]
    exact hlies.stop_eq.trans h
  exact (Nat.mod_eq_of_lt hoffset).symm.trans (Nat.ModEq.add_right_cancel' _ hmod)

end Places

end Image

/-! ## Making room under a cursor -/

namespace Ring.Holds

section Cursor

variable {r : Ring} {payload : Bytes} {records rest : List Bytes} {length : Nat}

/-- a cursor in front of the record that goes is moved in front of the next one, and any other stays -/
theorem evict_cursor (h : r.Holds (payload :: records)) (hlies : r.image.Lies r.capacity r.cursor rest)
    (hrest : rest <:+ payload :: records) :
    ∃ r₁ rest₁, r.evict = (r₁, .ok ()) ∧ Same r r₁ ∧ r₁.Holds records ∧ r₁.image.Lies r₁.capacity r₁.cursor rest₁
      ∧ rest₁ <:+ records ∧ rest₁ <:+ rest ∧ rest₁.length = min rest.length records.length := by
  obtain ⟨r₁, hevict, hsame, hholds⟩ := h.evict
  have hne : r.image.start ≠ r.image.stop := by
    intro heq
    exact List.cons_ne_nil _ _ ((h.lies.eq_stop_iff h.start_lt h.stop_lt).1 heq)
  have hframe := Image.Lies.frameAt h.toOpens h.start_lt h.lies
  have hdrop := hevict
  rw [evict_eq h.toSound, if_neg hne, hframe] at hdrop
  obtain rfl := (Prod.mk.inj hdrop).1
  rcases List.suffix_cons_iff.1 hrest with rfl | hbehind
  · -- the cursor is where the record begins that goes
    have hcursor : r.cursor = r.image.start := hlies.offset_eq h.lies h.cursor_lt h.start_lt
    have hzero : Circle.way r.capacity r.image.start r.cursor = 0 :=
      (Circle.way_eq_zero_iff h.start_lt h.cursor_lt).2 hcursor.symm
    have hmoved :
        (r.drop { offset := r.image.start, header := Varint.size payload.length, payload := payload.length }).cursor
          = (r.drop
            { offset := r.image.start, header := Varint.size payload.length
              payload := payload.length }).image.start := by
      rw [start_drop h.toSound, Ring.drop, hzero]
      exact if_pos (frameLength_pos payload.length)
    refine ⟨_, records, hevict, hsame, hholds, ?_, List.suffix_rfl, List.suffix_cons _ _, by simp⟩
    rw [hmoved]
    exact hholds.lies
  · -- the record that goes is behind the cursor
    obtain ⟨front, rfl⟩ := hbehind
    have hplace : r.cursor = (r.image.start + weight (payload :: front)) % r.capacity := by
      have hfront : r.image.Lies r.capacity r.image.start ((payload :: front) ++ rest) := h.lies
      exact hlies.offset_eq (hfront.behind h.toOpens h.start_lt) h.cursor_lt (Nat.mod_lt _ h.pos)
    have hweight : weight (payload :: front) < r.capacity := by
      have := h.lies.weight_lt
      rw [weight_cons, weight_append] at this
      rw [weight_cons]
      omega
    have hway : Circle.way r.capacity r.image.start r.cursor = weight (payload :: front) := by
      rw [hplace]
      exact Circle.way_add h.start_lt hweight
    have hkept :
        (r.drop { offset := r.image.start, header := Varint.size payload.length, payload := payload.length }).cursor
        = r.cursor := by
      rw [Ring.drop, hway]
      apply if_neg
      simp only [Frame.length, weight_cons, frameLength]
      omega
    refine ⟨_, rest, hevict, hsame, hholds, ?_, List.suffix_append _ _, List.suffix_rfl, by simp⟩
    rw [hkept, hsame.capacity]
    exact hlies.congr hsame.circle hsame.stop

theorem reserveWithin_cursor (h : r.Holds records) (hlength : length < r.capacity) {fuel : Nat}
    (hfuel : records.length < fuel) (hlies : r.image.Lies r.capacity r.cursor rest) (hrest : rest <:+ records) :
    ∃ rest₁, (Ring.reserveWithin fuel r length).1.image.Lies r.capacity
      (Ring.reserveWithin fuel r length).1.cursor rest₁
      ∧ rest₁ <:+ rest ∧ rest₁.length = min rest.length (Queue.room r.capacity length records).length := by
  induction records generalizing r rest fuel with
  | nil =>
    obtain ⟨fuel, rfl⟩ := Nat.exists_eq_succ_of_ne_zero (Nat.ne_of_gt hfuel)
    have hroom : ¬r.Crowded length r.image.start := by
      rw [h.crowded_iff]
      simpa using hlength
    obtain rfl := List.suffix_nil.1 hrest
    rw [reserveWithin_of_room h.toSound fuel hroom]
    exact ⟨[], hlies, List.suffix_rfl, rfl⟩
  | cons payload records ih =>
    obtain ⟨fuel, rfl⟩ := Nat.exists_eq_succ_of_ne_zero (Nat.ne_of_gt (Nat.zero_lt_of_lt hfuel))
    by_cases hfits : weight (payload :: records) + length < r.capacity
    · have hroom : ¬r.Crowded length r.image.start := by
        rw [h.crowded_iff]
        exact not_not.2 hfits
      rw [Queue.room_of_lt hfits, reserveWithin_of_room h.toSound fuel hroom]
      exact ⟨rest, hlies, List.suffix_rfl, (Nat.min_eq_left hrest.length_le).symm⟩
    · obtain ⟨r₁, rest₁, hevict, hsame, hholds, hlies₁, hrest₁, hshorter, hlength₁⟩ := h.evict_cursor hlies hrest
      obtain ⟨rest₂, hlies₂, hrest₂, hlength₂⟩ :=
        ih hholds (hsame.capacity ▸ hlength) (by simpa using hfuel) hlies₁ hrest₁
      have hroom := (Queue.room_suffix r.capacity length records).length_le
      rw [hsame.capacity] at hlies₂ hlength₂
      rw [Queue.room_cons_of_not_lt hfits, reserveWithin_of_crowded h.toSound fuel (h.crowded_iff.2 hfits), hevict]
      exact ⟨rest₂, hlies₂, hrest₂.trans hshorter, by omega⟩

/-- the handle that makes room is left in front of the records that it had in front of it and that are still there -/
theorem makeRoom_cursor (h : r.Holds records) {total : Nat} (hfits : frameLength total < r.capacity)
    (hlies : r.image.Lies r.capacity r.cursor rest) (hrest : rest <:+ records) :
    ∃ rest₁, (r.makeRoom total).1.image.Lies r.capacity (r.makeRoom total).1.cursor rest₁ ∧ rest₁ <:+ rest
      ∧ rest₁.length = min rest.length (Queue.room r.capacity (frameLength total) records).length := by
  have hcount : records.length < r.capacity + 2 := by
    have hle := length_le_weight records
    have hweight := h.lies.weight_lt
    omega
  rw [makeRoom_of_fits hfits, Ring.reserve]
  exact h.reserveWithin_cursor hfits hcount hlies hrest

end Cursor

end Ring.Holds

end CircularLog
