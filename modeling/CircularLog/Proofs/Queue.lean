/-
The queue that a ring stands for: its records, oldest first, and the record that is being written, if there is one.
Before a record is appended or begun, the fewest of the oldest records go, such that those left and the new frame leave
a byte of the circle free.

- `Queue.room_suffix`, `Queue.weight_room`, `Queue.suffix_room`: what is left is the longest suffix that allows this.
- `Queue.Longest.append`: by appending so, a queue always holds the longest suffix of all the records that it accepted.
- `decode_frame`: a record is found again in the bytes that it is written as.
-/
import CircularLog.Proofs.Varint
import CircularLog.Ring.Append

namespace CircularLog

/-! ## Records as bytes -/

/-- the frame of a record, with the shortest prefix -/
def Frame.encode (payload : Bytes) : Bytes := Varint.encode payload.length ++ payload

/-- the frames of the records, one after another -/
def framed (records : List Bytes) : Bytes := records.flatMap Frame.encode

/-- how many bytes the frames of the records take -/
def weight (records : List Bytes) : Nat := (records.map fun payload => frameLength payload.length).sum

section Framed

variable {payload : Bytes} {records more : List Bytes}

@[simp] theorem weight_nil : weight [] = 0 := rfl

@[simp] theorem weight_cons (payload : Bytes) (records : List Bytes) :
    weight (payload :: records) = frameLength payload.length + weight records := by
  simp [weight]

@[simp] theorem weight_append (records more : List Bytes) :
    weight (records ++ more) = weight records + weight more := by
  simp [weight]

@[simp] theorem framed_nil : framed [] = [] := rfl

@[simp] theorem framed_cons (payload : Bytes) (records : List Bytes) :
    framed (payload :: records) = Frame.encode payload ++ framed records := rfl

@[simp] theorem framed_append (records more : List Bytes) :
    framed (records ++ more) = framed records ++ framed more := by
  simp [framed]

theorem length_le_weight (records : List Bytes) : records.length ≤ weight records := by
  induction records with
  | nil => exact le_rfl
  | cons payload records ih =>
    have hpos := frameLength_pos payload.length
    rw [List.length_cons, weight_cons]
    omega

theorem weight_eq_zero_iff : weight records = 0 ↔ records = [] := by
  constructor
  · intro hzero
    have := length_le_weight records
    exact List.length_eq_zero_iff.1 (by omega)
  · rintro rfl
    rfl

theorem length_encode_frame (h : payload.length < Word.bound) :
    (Frame.encode payload).length = frameLength payload.length := by
  rw [Frame.encode, List.length_append, Varint.length_encode h, frameLength]

theorem length_framed (h : weight records < Word.bound) : (framed records).length = weight records := by
  induction records with
  | nil => rfl
  | cons payload records ih =>
    rw [weight_cons] at h
    have hpayload := le_frameLength payload.length
    rw [framed_cons, List.length_append, length_encode_frame (by omega), ih (by omega), weight_cons]

/-- the length of a record is read from any front of its frame that holds the whole prefix -/
theorem decode_frame (h : payload.length < Word.bound) (rest : Bytes) {n : Nat} (hn : Varint.size payload.length ≤ n) :
    Varint.decode ((Frame.encode payload ++ rest).take n) = .ok (payload.length, Varint.size payload.length) := by
  have hlength := Varint.length_encode h
  rw [Frame.encode, List.append_assoc, List.take_append, hlength, List.take_of_length_le (by omega)]
  exact Varint.decode_encode h _

end Framed

/-! ## The queue -/

structure Queue where
  records : List Bytes := []
  /-- the length of the record that is being written, and its bytes so far -/
  pending : Option (Nat × Bytes) := none
deriving DecidableEq, Repr

/-- what is asked of a queue -/
inductive Event where
  | append (payload : Bytes)
  /-- begins a record of this length -/
  | start (total : Nat)
  | put (chunk : Bytes)
  | finish
  /-- abandons the record that is being written -/
  | leave
deriving DecidableEq, Repr

namespace Queue

/-- the records that are left when the fewest of the oldest are dropped, such that the others and `length` bytes leave a
byte of the circle free -/
def room (capacity length : Nat) : List Bytes → List Bytes
  | [] => []
  | payload :: records =>
    if weight (payload :: records) + length < capacity then payload :: records else room capacity length records

/-- the queue after an event, and whether the event was accepted -/
def step (capacity : Nat) (q : Queue) : Event → Queue × Outcome Unit
  | .append payload =>
    if frameLength payload.length < capacity then
      ({ q with records := room capacity (frameLength payload.length) q.records ++ [payload] }, .ok ())
    else (q, refuse (.recordTooLarge capacity payload.length))
  | .start total =>
    if frameLength total < capacity then
      ({ records := room capacity (frameLength total) q.records, pending := some (total, []) }, .ok ())
    else (q, refuse (.recordTooLarge capacity total))
  | .put chunk =>
    match q.pending with
    | none => (q, .ok ())
    | some (total, written) =>
      if total < written.length + chunk.length then
        (q, refuse (.chunkTooLong chunk.length (total - written.length) total))
      else ({ q with pending := some (total, written ++ chunk) }, .ok ())
  | .finish =>
    match q.pending with
    | none => (q, .ok ())
    | some (total, written) =>
      if written.length = total then ({ records := q.records ++ [written], pending := none }, .ok ())
      else ({ q with pending := none }, refuse (.unfinished (total - written.length) total))
  | .leave => ({ q with pending := none }, .ok ())

def run (capacity : Nat) : Queue → List Event → Queue × List (Outcome Unit)
  | q, [] => (q, [])
  | q, event :: rest =>
    let (q, outcome) := q.step capacity event
    let (q, outcomes) := run capacity q rest
    (q, outcome :: outcomes)

section Room

variable {capacity length : Nat} {records other : List Bytes}

theorem room_of_lt (h : weight records + length < capacity) : room capacity length records = records := by
  cases records with
  | nil => rfl
  | cons payload records => exact if_pos h

theorem room_cons_of_not_lt {payload : Bytes} (h : ¬weight (payload :: records) + length < capacity) :
    room capacity length (payload :: records) = room capacity length records := if_neg h

theorem room_suffix (capacity length : Nat) (records : List Bytes) : room capacity length records <:+ records := by
  induction records with
  | nil => exact List.suffix_rfl
  | cons payload records ih =>
    by_cases h : weight (payload :: records) + length < capacity
    · rw [room_of_lt h]
    · rw [room_cons_of_not_lt h]
      exact ih.trans (List.suffix_cons payload records)

theorem weight_room (hlength : length < capacity) (records : List Bytes) :
    weight (room capacity length records) + length < capacity := by
  induction records with
  | nil => simpa [room] using hlength
  | cons payload records ih =>
    by_cases h : weight (payload :: records) + length < capacity
    · rwa [room_of_lt h]
    · rwa [room_cons_of_not_lt h]

/-- no record is dropped without need -/
theorem suffix_room (hsuffix : other <:+ records) (hweight : weight other + length < capacity) :
    other <:+ room capacity length records := by
  induction records with
  | nil => exact hsuffix
  | cons payload records ih =>
    by_cases h : weight (payload :: records) + length < capacity
    · rwa [room_of_lt h]
    · rw [room_cons_of_not_lt h]
      rcases List.suffix_cons_iff.1 hsuffix with rfl | hsuffix
      · exact absurd hweight h
      · exact ih hsuffix

end Room

/-! ## What a queue retains -/

/-- the records that are kept are the longest suffix of those that were accepted that leaves a byte of the circle
free -/
structure Longest (capacity : Nat) (kept accepted : List Bytes) : Prop where
  suffix : kept <:+ accepted
  weight_lt : weight kept < capacity
  longest : ∀ other, other <:+ accepted → weight other < capacity → other <:+ kept

theorem Longest.nil {capacity : Nat} (hpos : 0 < capacity) : Longest capacity [] [] where
  suffix := List.suffix_rfl
  weight_lt := hpos
  longest _ hsuffix _ := hsuffix

/-- each append drops no more than it must, and so nothing is ever lost without need -/
theorem Longest.append {capacity : Nat} {kept accepted : List Bytes} {payload : Bytes}
    (h : Longest capacity kept accepted) (hfits : frameLength payload.length < capacity) :
    Longest capacity (room capacity (frameLength payload.length) kept ++ [payload]) (accepted ++ [payload]) where
  suffix := by
    obtain ⟨front, hfront⟩ := (room_suffix capacity (frameLength payload.length) kept).trans h.suffix
    exact ⟨front, by rw [← List.append_assoc, hfront]⟩
  weight_lt := by
    have hroom := weight_room hfits kept
    rw [weight_append, weight_cons, weight_nil]
    omega
  longest other hsuffix hweight := by
    rcases List.eq_nil_or_concat other with rfl | ⟨older, newest, rfl⟩
    · exact List.nil_suffix
    · obtain ⟨front, hfront⟩ := hsuffix
      rw [List.concat_eq_append, ← List.append_assoc] at hfront
      obtain ⟨holder, hnewest⟩ := List.append_inj' hfront rfl
      obtain rfl : newest = payload := by simpa using hnewest
      rw [List.concat_eq_append, weight_append, weight_cons, weight_nil] at hweight
      have hkept : older <:+ kept := h.longest older ⟨front, holder⟩ (by omega)
      have hroom : weight older + frameLength newest.length < capacity := by omega
      obtain ⟨dropped, hdropped⟩ := suffix_room hkept hroom
      exact ⟨dropped, by rw [List.concat_eq_append, ← List.append_assoc, hdropped]⟩

end Queue

end CircularLog
