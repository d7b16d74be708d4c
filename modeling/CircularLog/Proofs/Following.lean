/-
Reading from a handle that stands in front of records that are kept. Each way to read gives the first of them, whole,
into a buffer or in pieces, and moves the handle in front of the next; where there is none, it says so.

- `Image.Lies.read`, `Image.Lies.startRead`, `Reader.Follows.take`, `Reader.Follows.takeAll`, `Reader.Follows.finish`:
  what each of them gives.
- `Heard`: what a caller has been given so far.
- `Ring.Stands.act`: one request that reads, and where it leaves the handle.
-/
import CircularLog.Proofs.Log
import CircularLog.Proofs.Streaming

namespace CircularLog

/-! ## What is there to be read -/

namespace Image.Lies

section Lies

variable {image : Image} {r : Ring} {capacity offset consumed length : Nat} {payload buffer : Bytes} {rest : List Bytes}

/-- a stretch of the first record -/
theorem stretch (hopens : image.Opens capacity) (h : image.Lies capacity offset (payload :: rest))
    (hlength : consumed + length ≤ payload.length) :
    (image.circle.rotate (offset + Varint.size payload.length + consumed)).take length
      = (payload.drop consumed).take length := by
  have hhead := h.head hopens
  have hcircle := hopens.length_rotate (offset + Varint.size payload.length)
  have hfits : payload.length ≤ capacity := by
    have hweight := h.weight_lt
    have hparts := frameLength_eq payload.length
    rw [weight_cons] at hweight
    omega
  rw [← List.rotate_rotate]
  generalize image.circle.rotate (offset + Varint.size payload.length) = turned at *
  have hback : length ≤ (turned.drop consumed).length := by
    rw [List.length_drop]
    omega
  have hpayload : payload.drop consumed = (turned.drop consumed).take (payload.length - consumed) := by
    rw [← List.drop_take, hhead]
  rw [List.rotate_eq_drop_append_take (by omega), List.take_append_of_le_length hback, hpayload, List.take_take,
    Nat.min_eq_left (by omega)]

theorem cursor_ne_stop (hsound : r.Sound) (h : r.image.Lies r.capacity r.cursor (payload :: rest)) :
    r.cursor ≠ r.image.stop := by
  intro heq
  exact List.cons_ne_nil _ _ ((h.eq_stop_iff hsound.cursor_lt hsound.stop_lt).1 heq)

/-- the frame of the first record -/
theorem in_range (hsound : r.Sound) (h : r.image.Lies r.capacity r.cursor (payload :: rest)) :
    Frame.InRange { offset := r.cursor, header := Varint.size payload.length, payload := payload.length } r.capacity :=
  Ring.frameAt_in_range hsound.toOpens hsound.cursor_lt hsound.stop_lt (frameAt hsound.toOpens hsound.cursor_lt h)

theorem record_nil (hsound : r.Sound) (h : r.image.Lies r.capacity r.cursor []) : r.record = .ok (r, none) := by
  rw [Ring.record_eq hsound, if_pos ((h.eq_stop_iff hsound.cursor_lt hsound.stop_lt).2 rfl)]

theorem read_nil (hsound : r.Sound) (h : r.image.Lies r.capacity r.cursor []) (buffer : Bytes) :
    r.read buffer = (buffer, .ok (r, none)) := by
  rw [Ring.read_eq hsound, if_pos ((h.eq_stop_iff hsound.cursor_lt hsound.stop_lt).2 rfl)]

theorem startRead_nil (hsound : r.Sound) (h : r.image.Lies r.capacity r.cursor []) : Reader.start r = .ok none := by
  rw [Ring.start_eq, if_pos ((h.eq_stop_iff hsound.cursor_lt hsound.stop_lt).2 rfl)]

theorem read_small (hsound : r.Sound) (h : r.image.Lies r.capacity r.cursor (payload :: rest))
    (hsmall : buffer.length < payload.length) :
    r.read buffer = (buffer, refuse (.bufferTooSmall r.cursor payload.length)) := by
  rw [Ring.read_eq hsound, if_neg (h.cursor_ne_stop hsound), frameAt hsound.toOpens hsound.cursor_lt h]
  exact if_pos hsmall

theorem read (hsound : r.Sound) (h : r.image.Lies r.capacity r.cursor (payload :: rest))
    (hlong : ¬buffer.length < payload.length) :
    r.read buffer
      = (fill buffer payload,
        .ok ({ r with cursor := (r.cursor + frameLength payload.length) % r.capacity }, some payload.length)) := by
  rw [Ring.read_eq hsound, if_neg (h.cursor_ne_stop hsound), frameAt hsound.toOpens hsound.cursor_lt h]
  simp only [if_neg hlong, head hsound.toOpens h]
  rfl

theorem startRead (hsound : r.Sound) (h : r.image.Lies r.capacity r.cursor (payload :: rest)) :
    Reader.start r
      = .ok (some
        { frame := { offset := r.cursor, header := Varint.size payload.length, payload := payload.length } }) := by
  rw [Ring.start_eq, if_neg (h.cursor_ne_stop hsound), frameAt hsound.toOpens hsound.cursor_lt h]

end Lies

end Image.Lies

/-- the reader is in the record under the cursor, and this piece of it has been delivered; the bytes that a failed call
has passed over are not in the piece -/
structure Reader.Follows (reader : Reader) (cursor : Nat) (payload piece : Bytes) : Prop where
  frame_eq : reader.frame = { offset := cursor, header := Varint.size payload.length, payload := payload.length }
  piece_front : piece <+: payload
  consumed_eq : reader.consumed = piece.length ∨ reader.consumed = payload.length

namespace Reader.Follows

section Follows

variable {r : Ring} {reader : Reader} {cursor length : Nat} {payload piece : Bytes} {rest : List Bytes}

theorem start (cursor : Nat) (payload : Bytes) :
    Follows { frame := { offset := cursor, header := Varint.size payload.length, payload := payload.length } }
      cursor payload
      [] where
  frame_eq := rfl
  piece_front := List.nil_prefix
  consumed_eq := Or.inl rfl

theorem total_eq (h : reader.Follows cursor payload piece) : reader.total = payload.length := by
  rw [total, h.frame_eq]

theorem consumed_le (h : reader.Follows cursor payload piece) : reader.consumed ≤ payload.length := by
  have hpiece := h.piece_front.length_le
  rcases h.consumed_eq with heq | heq <;> omega

theorem in_range (h : reader.Follows r.cursor payload piece) (hsound : r.Sound)
    (hlies : r.image.Lies r.capacity r.cursor (payload :: rest)) : reader.InRange r.capacity where
  frame := by
    rw [h.frame_eq]
    exact hlies.in_range hsound
  consumed_le := by
    rw [h.frame_eq]
    exact h.consumed_le

/-- the bytes ahead are those of the record -/
theorem ahead_eq (h : reader.Follows r.cursor payload piece) (hsound : r.Sound)
    (hlies : r.image.Lies r.capacity r.cursor (payload :: rest)) (length : Nat) :
    reader.ahead r (min reader.remaining length) = (payload.drop reader.consumed).take length := by
  have hconsumed := h.consumed_le
  have hremaining : reader.remaining = payload.length - reader.consumed := by rw [remaining, h.total_eq]
  rw [ahead, h.frame_eq, hlies.stretch hsound.toOpens (by omega), List.take_eq_take_iff, List.length_drop, hremaining]
  omega

/-- the piece that is delivered next, and where it leaves the reader -/
theorem take (h : reader.Follows r.cursor payload piece) (hsound : r.Sound)
    (hlies : r.image.Lies r.capacity r.cursor (payload :: rest)) (length : Nat) :
    reader.take r length
      = ((payload.drop reader.consumed).take length,
        .ok { reader with consumed := reader.consumed + min reader.remaining length }) := by
  rw [take_eq hsound.toOpens (h.in_range hsound hlies), h.ahead_eq hsound hlies]

theorem takeExact (h : reader.Follows r.cursor payload piece) (hsound : r.Sound)
    (hlies : r.image.Lies r.capacity r.cursor (payload :: rest)) (length : Nat) :
    reader.takeExact r length
      = ({ reader with consumed := reader.consumed + min reader.remaining length },
        .ok (if reader.remaining < length then none else some ((payload.drop reader.consumed).take length))) := by
  rw [takeExact_eq hsound.toOpens (h.in_range hsound hlies), ← h.ahead_eq hsound hlies]
  by_cases hshort : reader.remaining < length
  · rw [if_pos hshort, if_pos hshort]
  · rw [if_neg hshort, if_neg hshort, Nat.min_eq_right (Nat.le_of_not_lt hshort)]

theorem takeAll (h : reader.Follows r.cursor payload piece) (hsound : r.Sound)
    (hlies : r.image.Lies r.capacity r.cursor (payload :: rest)) :
    reader.takeAll r = ({ reader with consumed := payload.length }, .ok (payload.drop reader.consumed)) := by
  have hall := h.ahead_eq hsound hlies reader.remaining
  have hremaining : reader.remaining = (payload.drop reader.consumed).length := by
    rw [remaining, h.total_eq, List.length_drop]
  rw [Nat.min_self, hremaining, List.take_length] at hall
  rw [takeAll_eq hsound.toOpens (h.in_range hsound hlies), hremaining, hall, h.frame_eq]

/-- the end moves the cursor behind the record -/
theorem finish (h : reader.Follows r.cursor payload piece) (hsound : r.Sound)
    (hlies : r.image.Lies r.capacity r.cursor (payload :: rest)) :
    reader.finish r = .ok { r with cursor := (r.cursor + frameLength payload.length) % r.capacity } := by
  rw [finish_eq hsound.toOpens (h.in_range hsound hlies), h.frame_eq]
  rfl

/-- a piece behind the pieces before it, if none has been passed over; and else there is none -/
theorem next (h : reader.Follows cursor payload piece) (length : Nat) :
    ({ reader with consumed := reader.consumed + min reader.remaining length } : Reader).Follows cursor payload
      (piece ++ (payload.drop reader.consumed).take length) := by
  have hremaining : reader.remaining = payload.length - reader.consumed := by rw [remaining, h.total_eq]
  rcases h.consumed_eq with heq | heq
  · refine ⟨h.frame_eq, ?_, Or.inl ?_⟩
    · obtain ⟨back, rfl⟩ := h.piece_front
      rw [heq, List.drop_left]
      exact (List.prefix_append_right_inj _).2 (List.take_prefix _ _)
    · simp only [List.length_append, List.length_take, List.length_drop, hremaining, heq]
      omega
  · refine ⟨h.frame_eq, ?_, Or.inr ?_⟩
    · rw [heq, List.drop_length, List.take_nil, List.append_nil]
      exact h.piece_front
    · simp only
      omega

/-- and so is all that is left -/
theorem next_all (h : reader.Follows cursor payload piece) :
    ({ reader with consumed := payload.length } : Reader).Follows cursor payload
      (piece ++ payload.drop reader.consumed) := by
  have hnext := h.next payload.length
  have hremaining : reader.remaining = payload.length - reader.consumed := by rw [remaining, h.total_eq]
  have hconsumed := h.consumed_le
  have hall : reader.consumed + min reader.remaining payload.length = payload.length := by omega
  rwa [hall, List.take_of_length_le (by rw [List.length_drop]; omega)] at hnext

/-- the bytes have been passed over -/
theorem skip (h : reader.Follows cursor payload piece) (hlength : reader.remaining ≤ length) :
    ({ reader with consumed := reader.consumed + min reader.remaining length } : Reader).Follows cursor
      payload piece := by
  have hconsumed := h.consumed_le
  have hremaining : reader.remaining = payload.length - reader.consumed := by rw [remaining, h.total_eq]
  refine ⟨h.frame_eq, h.piece_front, Or.inr ?_⟩
  simp only
  omega

end Follows

end Reader.Follows

/-! ## What has been read -/

/-- what a caller has been given: the records, each with the length that it was told, and a piece of the next one -/
structure Heard where
  records : List (Bytes × Nat) := []
  piece : Bytes := []
deriving DecidableEq, Repr

namespace Heard

open Session

def add (heard : Heard) (bytes : Bytes) (total : Nat) : Heard := { records := heard.records ++ [(bytes, total)] }

def addPiece (heard : Heard) (bytes : Bytes) : Heard := { heard with piece := heard.piece ++ bytes }

/-- what has been read after an answer to a request for the handle, which was lent to this record in pieces, if it was
lent; after a rewind it begins anew -/
def hear (heard : Heard) (was : Option Stream) : Session.Request → Reply Answer → Heard
  | .rewind _, .ok _ => {}
  | .record _, .ok (.record (some payload)) => heard.add payload payload.length
  | .read _ _, .ok (.filled buffer (some length)) => heard.add (buffer.take length) length
  | .startRead _, .ok (.started true) => { heard with piece := [] }
  | .take _, .ok (.piece bytes) => heard.addPiece bytes
  | .takeAll, .ok (.piece bytes) => heard.addPiece bytes
  | .takeExact _, .ok (.exact (some bytes)) => heard.addPiece bytes
  | .finish, .ok _ =>
    match was with
    | some (.reading reader) => heard.add heard.piece reader.total
    | _ => heard
  | _, _ => heard

/-- what was read is the record or, where the end came early, the front of it; its length is the record's -/
def Tells (entry : Bytes × Nat) (payload : Bytes) : Prop := entry.1 <+: payload ∧ entry.2 = payload.length

theorem tells_whole (payload : Bytes) : Tells (payload, payload.length) payload := ⟨List.prefix_rfl, rfl⟩

end Heard

/-! ## One request that reads -/

/-- where a request leaves a handle that stood in front of `rest`, when the ring holds `records` -/
inductive Moved (records rest : List Bytes) (before after : List (Bytes × Nat)) : Session.Request → List Bytes → Prop
  | stayed {request : Session.Request} : after = before → Moved records rest before after request rest
  | passed {request : Session.Request} {payload : Bytes} {more : List Bytes} {entry : Bytes × Nat} :
      rest = payload :: more →
      Heard.Tells entry payload → after = before ++ [entry] → Moved records rest before after request more
  | rewound {name : String} : after = [] → Moved records rest before after (.rewind name) records

/-- the handle stands in front of these records, and if the first of them is being read, this piece of it has been
delivered -/
structure Ring.Stands (r : Ring) (was : Option Stream) (rest : List Bytes) (piece : Bytes) : Prop where
  lies : r.image.Lies r.capacity r.cursor rest
  reading : ∀ reader, was = some (.reading reader) →
    ∃ payload more, rest = payload :: more ∧ reader.Follows r.cursor payload piece

namespace Ring

open Session

section Stands

variable {r next : Ring} {records rest : List Bytes} {heard : Heard} {was now : Option Stream}
  {request : Session.Request} {result : Outcome Answer} {path : Path} {name : String} {payload piece : Bytes}

/-- the handle is free behind the first record -/
theorem Stands.pass (hsound : r.Sound) (hlies : r.image.Lies r.capacity r.cursor (payload :: rest)) (piece : Bytes) :
    ({ r with cursor := (r.cursor + frameLength payload.length) % r.capacity } : Ring).Stands none rest piece :=
  ⟨hlies.tail hsound.toOpens, by simp⟩

theorem Stands.free (h : r.Stands was rest piece) (other : Bytes) : r.Stands none rest other :=
  ⟨h.lies, by simp⟩

theorem Stands.act_record (hsound : r.Sound) (h : r.Stands none rest heard.piece)
    (hact : Session.Request.act r (.record name) none = some (next, now, result)) :
    ∃ rest', next.Stands now rest' (heard.hear none (.record name) (result.reply path)).piece
      ∧ Moved records rest heard.records (heard.hear none (.record name) (result.reply path)).records
        (.record name) rest' := by
  rw [Session.Request.act] at hact
  rcases rest with _ | ⟨payload, more⟩
  · rw [h.lies.record_nil hsound] at hact
    cases hact
    exact ⟨[], h, .stayed rfl⟩
  · rw [h.lies.record hsound] at hact
    cases hact
    exact ⟨more, .pass hsound h.lies _, .passed rfl (Heard.tells_whole payload) rfl⟩

theorem Stands.act_read {buffer : Bytes} (hsound : r.Sound) (h : r.Stands none rest heard.piece)
    (hact : Session.Request.act r (.read name buffer) none = some (next, now, result)) :
    ∃ rest', next.Stands now rest' (heard.hear none (.read name buffer) (result.reply path)).piece
      ∧ Moved records rest heard.records (heard.hear none (.read name buffer) (result.reply path)).records
        (.read name buffer) rest' := by
  rw [Session.Request.act] at hact
  rcases rest with _ | ⟨payload, more⟩
  · rw [h.lies.read_nil hsound] at hact
    cases hact
    exact ⟨[], h, .stayed rfl⟩
  · by_cases hsmall : buffer.length < payload.length
    · rw [h.lies.read_small hsound hsmall] at hact
      cases hact
      exact ⟨payload :: more, h, .stayed rfl⟩
    · rw [h.lies.read hsound hsmall] at hact
      cases hact
      refine ⟨more, .pass hsound h.lies _, .passed rfl ?_ rfl⟩
      rw [fill, List.take_left]
      exact Heard.tells_whole payload

theorem Stands.act_startRead (hsound : r.Sound) (h : r.Stands none rest heard.piece)
    (hact : Session.Request.act r (.startRead name) none = some (next, now, result)) :
    next.Stands now rest (heard.hear none (.startRead name) (result.reply path)).piece
      ∧ (heard.hear none (.startRead name) (result.reply path)).records = heard.records := by
  rw [Session.Request.act] at hact
  rcases rest with _ | ⟨payload, more⟩
  · rw [h.lies.startRead_nil hsound] at hact
    cases hact
    exact ⟨h, rfl⟩
  · rw [h.lies.startRead hsound] at hact
    cases hact
    refine ⟨⟨h.lies, ?_⟩, rfl⟩
    rintro _ ⟨⟩
    exact ⟨payload, more, rfl, .start r.cursor payload⟩

/-- more of the first record has been delivered -/
theorem Stands.further {reader : Reader} {more : List Bytes} {delivered : Bytes}
    (h : r.Stands was (payload :: more) delivered) (hfollows : reader.Follows r.cursor payload piece) :
    r.Stands (some (.reading reader)) (payload :: more) piece := by
  refine ⟨h.lies, ?_⟩
  rintro _ ⟨⟩
  exact ⟨payload, more, rfl, hfollows⟩

/-- while a record is being read; only the end of that moves the handle -/
theorem Stands.act_reading {reader : Reader} (hsound : r.Sound) (h : r.Stands (some (.reading reader)) rest heard.piece)
    (hact : request.act r (some (.reading reader)) = some (next, now, result)) (path : Path) :
    ∃ rest', next.Stands now rest' (heard.hear (some (.reading reader)) request (result.reply path)).piece
      ∧ Moved records rest heard.records
        (heard.hear (some (.reading reader)) request (result.reply path)).records request rest' := by
  obtain ⟨payload, more, rfl, hfollows⟩ := h.reading reader rfl
  cases request with
  | take length =>
    rw [Session.Request.act, hfollows.take hsound h.lies] at hact
    cases hact
    exact ⟨payload :: more, h.further (hfollows.next length), .stayed rfl⟩
  | takeExact length =>
    rw [Session.Request.act, hfollows.takeExact hsound h.lies] at hact
    by_cases hshort : reader.remaining < length
    · rw [if_pos hshort] at hact
      cases hact
      exact ⟨payload :: more, h.further (hfollows.skip hshort.le), .stayed rfl⟩
    · rw [if_neg hshort] at hact
      cases hact
      exact ⟨payload :: more, h.further (hfollows.next length), .stayed rfl⟩
  | takeAll =>
    rw [Session.Request.act, hfollows.takeAll hsound h.lies] at hact
    cases hact
    exact ⟨payload :: more, h.further hfollows.next_all, .stayed rfl⟩
  | finish =>
    rw [Session.Request.act, Session.Request.conclude, hfollows.finish hsound h.lies] at hact
    cases hact
    exact ⟨more, .pass hsound h.lies _, .passed rfl ⟨hfollows.piece_front, hfollows.total_eq⟩ rfl⟩
  | leave =>
    cases hact
    exact ⟨payload :: more, h.free _, .stayed rfl⟩
  | _ => cases hact

/-- **One request that reads.** It leaves the handle in front of the records that are left to be read. -/
theorem Stands.act (hholds : r.Holds records) (h : r.Stands was rest heard.piece) (hbegins : request.begins = false)
    (hwas : ∀ stream ∈ was, stream.writer? = none) (hact : request.act r was = some (next, now, result)) (path : Path) :
    ∃ rest', next.Stands now rest' (heard.hear was request (result.reply path)).piece
      ∧ Moved records rest heard.records (heard.hear was request (result.reply path)).records request rest' := by
  have hsound := hholds.toSound
  rcases was with _ | writer | reader
  · cases request with
    | rewind name =>
      cases hact
      simp only [Ring.rewind]
      exact ⟨records, ⟨hholds.lies, by simp⟩, .rewound rfl⟩
    | record name => exact h.act_record hsound hact
    | read name buffer => exact h.act_read hsound hact
    | startRead name =>
      obtain ⟨hstands, hrecords⟩ := h.act_startRead hsound hact
      exact ⟨rest, hstands, .stayed hrecords⟩
    | append name payload => cases hbegins
    | startWrite name total => cases hbegins
    | _ => cases hact
  · cases hwas _ rfl
  · exact h.act_reading hsound hact path

end Stands

end Ring

end CircularLog
