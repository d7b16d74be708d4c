/-
The ways to read the next record: asking for its length, reading it at once, with or without a buffer, and reading it in
pieces. Whatever the data hold, all of them find the same frame, and so they find nothing, a corrupt frame or a record
together.

- `Session.Withholds`, `Session.Yields`: what the ways to read come to, where there is no record, and where there is
  one; `Session.Delivers`: the one in pieces.
- `Ring.next_cases`: what is under the cursor decides which.
- `Session.takeEach_eq`: the pieces are those of the record, whatever their lengths.
- `read_paths_agree`: one of the two, for every handle.
-/
import CircularLog.Proofs.Accepting
import CircularLog.Proofs.Settling

namespace CircularLog

/-! ## Pieces -/

/-- the bytes in pieces, each as long as is asked for, or as there are bytes left -/
def pieces : Bytes → List Nat → List Bytes
  | _, [] => []
  | bytes, length :: lengths => bytes.take length :: pieces (bytes.drop length) lengths

theorem flatten_pieces (bytes : Bytes) (lengths : List Nat) :
    (pieces bytes lengths).flatten = bytes.take lengths.sum := by
  induction lengths generalizing bytes with
  | nil => rfl
  | cons length lengths ih => rw [pieces, List.flatten_cons, ih, List.sum_cons, List.take_add]

namespace Reader

section Pieces

variable {r : Ring} {reader : Reader}

theorem ahead_take (reader : Reader) (r : Ring) (length : Nat) :
    reader.ahead r (min reader.remaining length) = (reader.ahead r reader.remaining).take length := by
  rw [ahead, ahead, List.take_take, Nat.min_comm]

/-- what is left behind a piece -/
theorem ahead_drop (h : r.image.Opens r.capacity) (hreader : reader.InRange r.capacity) (length : Nat) :
    ({ reader with consumed := reader.consumed + min reader.remaining length } : Reader).ahead r
        (reader.remaining - min reader.remaining length)
      = (reader.ahead r reader.remaining).drop length := by
  have hwhole := ahead_append h hreader (Nat.min_le_left reader.remaining length)
  have hpiece := length_ahead h hreader (Nat.min_le_left reader.remaining length)
  rcases Nat.le_total length reader.remaining with hshort | hlong
  · rw [Nat.min_eq_right hshort] at hwhole hpiece ⊢
    rw [← hwhole, List.drop_left' hpiece]
  · have hlength := length_ahead h hreader (Nat.le_refl reader.remaining)
    rw [Nat.min_eq_left hlong, Nat.sub_self, ahead, List.take_zero, List.drop_eq_nil_of_le (hlength.trans_le hlong)]

end Pieces

end Reader

/-! ## What is under the cursor -/

namespace Ring

/-- nothing is found by looking for a frame: there is none, or it is not accepted -/
structure Withholds (r : Ring) (result : Outcome Unit) : Prop where
  nextSize : r.nextSize = result.map fun _ => none
  record : r.record = result.map fun _ => (r, none)
  read : ∀ buffer, r.read buffer = (buffer, result.map fun _ => (r, none))
  start : Reader.start r = result.map fun _ => none

section Next

variable {r : Ring} {frame : Frame} {stop : Stop}

theorem withholds_of_end (h : r.Sound) (hend : r.cursor = r.image.stop) : r.Withholds (.ok ()) where
  nextSize := by
    simp only [nextSize, next, if_pos hend, bind, Except.bind, pure, Except.pure, Option.map_none, Except.map]
  record := by rw [record_eq h, if_pos hend, Except.map]
  read buffer := by rw [read_eq h, if_pos hend, Except.map]
  start := by rw [start_eq, if_pos hend, Except.map]

theorem withholds_of_error (h : r.Sound) (hend : r.cursor ≠ r.image.stop)
    (hframe : r.frameAt r.cursor r.image.stop = .error stop) : r.Withholds (.error stop) where
  nextSize := by simp only [nextSize, next, if_neg hend, hframe, bind, Except.bind, Functor.map, Except.map]
  record := by simp only [record_eq h, if_neg hend, hframe, Except.map]
  read buffer := by simp only [read_eq h, if_neg hend, hframe, Except.map]
  start := by simp only [start_eq, if_neg hend, hframe, Except.map]

theorem nextSize_of_frame (hend : r.cursor ≠ r.image.stop) (hframe : r.frameAt r.cursor r.image.stop = .ok frame) :
    r.nextSize = .ok (some frame.payload) := by
  simp only [nextSize, next, if_neg hend, hframe, bind, Except.bind, Functor.map, Except.map, pure, Except.pure,
    Option.map_some]

/-- there is no record, a frame that is not accepted, or a frame -/
theorem next_cases (h : r.Sound) :
    r.Withholds (.ok ()) ∨ (∃ refusal, refusal.kind = .corruptFrame ∧ r.Withholds (.error (.refused refusal)))
      ∨ r.cursor ≠ r.image.stop ∧ ∃ frame, r.frameAt r.cursor r.image.stop = .ok frame := by
  by_cases hend : r.cursor = r.image.stop
  · exact Or.inl (withholds_of_end h hend)
  cases hframe : r.frameAt r.cursor r.image.stop with
  | error stop =>
    obtain ⟨refusal, rfl, hcorrupt⟩ := frameAt_error h.size h.bounded h.cursor_lt h.stop_lt hframe
    exact Or.inr (Or.inl ⟨refusal, hcorrupt.kind_eq, withholds_of_error h hend hframe⟩)
  | ok frame => exact Or.inr (Or.inr ⟨hend, frame, rfl⟩)

end Next

end Ring

namespace Session

/-! ## What a read leaves -/

/-- the handle under the name is this one afterwards; nothing else has changed -/
structure Leaves (s s' : Session) (name : String) (handle : Handle) : Prop where
  files : s'.files = s.files
  self : s'.find? name = some handle
  others : ∀ other, other ≠ name → s'.find? other = s.find? other
  loans : s'.loans = s.loans

section Leaves

variable {s : Session} {name : String} {handle : Handle}

theorem leaves_self (hfind : s.find? name = some handle) : s.Leaves s name handle := ⟨rfl, hfind, fun _ _ => rfl, rfl⟩

theorem leaves_save (s : Session) (name : String) (handle : Handle) (cursor : Nat) :
    s.Leaves (s.save name handle { handle.ring s.files with cursor }) name { handle with cursor } where
  files := FileSystem.setImage_image s.files handle.node
  self := find?_bind_self _ _ _
  others _ hother := find?_bind_of_ne _ _ hother
  loans := rfl

/-- a handle that comes back to its name -/
theorem leaves_return (s : Session) (name : String) (handle : Handle) (cursor : Nat) :
    s.Leaves ((s.release name).save name handle { handle.ring s.files with cursor }) name { handle with cursor } where
  files := (leaves_save (s.release name) name handle cursor).files
  self := find?_bind_self _ _ _
  others _ hother := (find?_bind_of_ne _ _ hother).trans (find?_release_of_ne s hother)
  loans := rfl

end Leaves

/-! ## The ways to read -/

/-- the pieces of the record that is being read, of these lengths: the bytes that were delivered, each with its
answer -/
def takeEach : Session → List Nat → Session × List (Bytes × Reply Nat)
  | s, [] => (s, [])
  | s, length :: lengths =>
    let (next, delivered, answer) := s.take length
    let (last, more) := next.takeEach lengths
    (last, (delivered, answer) :: more)

/-- however the next record is read, nothing is found and nothing changes; the caller is told `answer` in each case -/
structure Withholds (s : Session) (name : String) (handle : Handle) (answer : Reply Unit) : Prop where
  nextSize : s.query name Ring.nextSize = answer.map fun _ => none
  record : (s.record name).2 = answer.map (fun _ => none) ∧ s.Leaves (s.record name).1 name handle
  read : ∀ buffer, (s.read name buffer).2 = .ok (buffer, answer.map fun _ => none)
    ∧ s.Leaves (s.read name buffer).1 name handle
  startRead : (s.startRead name).2 = answer.map (fun _ => false) ∧ s.Leaves (s.startRead name).1 name handle

/-- a session in which the record is being read: what pieces of these lengths come to, and how it can end after them;
`s` is the session before, and `cursor` is behind the record -/
structure Delivers (s begun : Session) (name : String) (handle : Handle) (payload : Bytes) (cursor : Nat)
    (lengths : List Nat) :
    Prop where
  /-- the answer to each piece is its length -/
  takeEach : (begun.takeEach lengths).2 = (pieces payload lengths).map fun piece => (piece, .ok piece.length)
  joined : ((begun.takeEach lengths).2.map Prod.fst).flatten = payload.take lengths.sum
  finish : (begun.takeEach lengths).1.finish.2 = .ok ()
    ∧ s.Leaves (begun.takeEach lengths).1.finish.1 name { handle with cursor }
  leave : s.Leaves (begun.takeEach lengths).1.leave name handle

/-- however the next record is read, it is this one, and `cursor` is behind it -/
structure Yields (s : Session) (name : String) (handle : Handle) (payload : Bytes) (cursor : Nat) : Prop where
  nextSize : s.query name Ring.nextSize = .ok (some payload.length)
  record : (s.record name).2 = .ok (some payload) ∧ s.Leaves (s.record name).1 name { handle with cursor }
  read : ∀ buffer : Bytes, payload.length ≤ buffer.length →
    (s.read name buffer).2 = .ok (payload ++ buffer.drop payload.length, .ok (some payload.length))
      ∧ s.Leaves (s.read name buffer).1 name { handle with cursor }
  read_small : ∀ buffer : Bytes, buffer.length < payload.length →
    (∃ report, (s.read name buffer).2 = .ok (buffer, .error (.refused report)) ∧ report.kind = .bufferTooSmall
        ∧ report.size = some payload.length)
      ∧ s.Leaves (s.read name buffer).1 name handle
  startRead : (s.startRead name).2 = .ok true
  delivers : ∀ lengths, s.Delivers (s.startRead name).1 name handle payload cursor lengths

section Reading

variable {s : Session} {name : String} {handle : Handle} {reader : Reader} {rest : List Loan} {result : Outcome Unit}
  {frame : Frame}

/-- the pieces of a record are delivered one after another, and the reader stays with its frame -/
theorem takeEach_eq (hloans : s.loans = { name, handle, stream := .reading reader } :: rest)
    (h : (handle.ring s.files).image.Opens handle.capacity) (hreader : reader.InRange handle.capacity)
    (lengths : List Nat) :
    ∃ behind : Reader, behind.frame = reader.frame ∧ behind.InRange handle.capacity
      ∧ s.takeEach lengths
        = ({ s with loans := { name, handle, stream := .reading behind } :: rest },
          (pieces (reader.ahead (handle.ring s.files) reader.remaining) lengths).map fun piece =>
            (piece, .ok piece.length)) := by
  induction lengths generalizing s reader with
  | nil => exact ⟨reader, rfl, hreader, by rw [← hloans]; rfl⟩
  | cons length lengths ih =>
    obtain ⟨next, hnext⟩ : ∃ next : Reader,
      next = { reader with consumed := reader.consumed + min reader.remaining length } := ⟨_, rfl⟩
    have hrange : next.InRange handle.capacity := by
      rw [hnext]
      exact Reader.InRange.take (r := handle.ring s.files) hreader length
    have hremaining : next.remaining = reader.remaining - min reader.remaining length := by
      rw [hnext]
      simp only [Reader.remaining, Reader.total]
      omega
    have hpiece := Reader.ahead_take reader (handle.ring s.files) length
    have hleft := Reader.ahead_drop (r := handle.ring s.files) h hreader length
    rw [← hnext, ← hremaining] at hleft
    have htake : s.take length
        = ({ s with loans := { name, handle, stream := .reading next } :: rest },
          (reader.ahead (handle.ring s.files) reader.remaining).take length,
          .ok ((reader.ahead (handle.ring s.files) reader.remaining).take length).length) := by
      simp only [take, hloans, Reader.take_eq (r := handle.ring s.files) h hreader, hpiece, ← hnext]
    obtain ⟨behind, hframe, hbehind, hmore⟩ :=
      ih (s := { s with loans := { name, handle, stream := .reading next } :: rest })
      rfl h hrange
    refine ⟨behind, by rw [hframe, hnext], hbehind, ?_⟩
    rw [takeEach, htake]
    simp only [hmore]
    rw [pieces, List.map_cons, ← hleft]

/-- there is no record for any of the ways to read, or the same refusal -/
theorem withholds_of_ring (hfind : s.find? name = some handle) (h : (handle.ring s.files).Withholds result) :
    s.Withholds name handle (result.reply handle.path) := by
  have hsaved : s.Leaves (s.save name handle (handle.ring s.files)) name handle :=
    leaves_save s name handle handle.cursor
  refine ⟨?_, ?_, ?_, ?_⟩
  · simp only [query, hfind, h.nextSize, reply_map]
  · simp only [Session.record, change, hfind, h.record]
    cases result
    · exact ⟨rfl, hsaved⟩
    · exact ⟨rfl, hsaved⟩
  · intro buffer
    simp only [Session.read, hfind, h.read]
    cases result
    · exact ⟨rfl, hsaved⟩
    · exact ⟨rfl, hsaved⟩
  · simp only [Session.startRead, hfind, h.start]
    cases result
    · exact ⟨rfl, leaves_self hfind⟩
    · exact ⟨rfl, leaves_self hfind⟩

/-- the handle is lent to the reader of the frame that is found -/
theorem startRead_of_frame (hfind : s.find? name = some handle)
    (hend : (handle.ring s.files).cursor ≠ (handle.ring s.files).image.stop)
    (hframe : (handle.ring s.files).frameAt (handle.ring s.files).cursor (handle.ring s.files).image.stop = .ok frame) :
    s.startRead name = (s.lend { name, handle, stream := .reading { frame } }, .ok true) := by
  simp only [startRead, hfind, Ring.start_eq, if_neg hend, hframe]

/-- the handle comes back with its cursor behind the record, however much of it was read -/
theorem finish_reading (h : (handle.ring s.files).Sound) (hreader : reader.InRange handle.capacity) :
    ({ s.release name with loans := { name, handle, stream := .reading reader } :: s.loans } : Session).finish
      = ((s.release name).save name handle
          { handle.ring s.files with cursor := (reader.frame.offset + reader.frame.length) % handle.capacity },
            .ok ()) := by
  have hfinish : Request.conclude (handle.ring s.files) (.reading reader) = .ok
      { handle.ring s.files with cursor := (reader.frame.offset + reader.frame.length) % handle.capacity } :=
    Reader.finish_eq (r := handle.ring s.files) h.toOpens hreader
  rw [finish_eq rfl]
  have hring : handle.ring (s.release name).files = handle.ring s.files := rfl
  simp only [hring, hfinish]
  rfl

/-- a record that is abandoned leaves the cursor where it was -/
theorem leave_reading (s : Session) (name : String) (handle : Handle) (reader : Reader) :
    ({ s.release name with loans := { name, handle, stream := .reading reader } :: s.loans } : Session).leave
      = (s.release name).save name handle { handle.ring s.files with cursor := handle.cursor } :=
  (save_ring (s.release name) name handle).symm

/-- the pieces are those of the bytes behind the prefix -/
theorem delivers_of_frame (hfind : s.find? name = some handle) (h : (handle.ring s.files).Sound)
    (hend : (handle.ring s.files).cursor ≠ (handle.ring s.files).image.stop)
    (hframe : (handle.ring s.files).frameAt (handle.ring s.files).cursor (handle.ring s.files).image.stop = .ok frame)
    (lengths : List Nat) :
    s.Delivers (s.startRead name).1 name handle
      (((handle.ring s.files).image.circle.rotate ((handle.ring s.files).cursor + frame.header)).take frame.payload)
      ((handle.cursor + frame.length) % handle.capacity) lengths := by
  have hoffset : frame.offset = handle.cursor := (Ring.frameAt_ok h.toOpens h.cursor_lt h.stop_lt hframe).1
  have hrange := Ring.frameAt_in_range h.toOpens h.cursor_lt h.stop_lt hframe
  obtain ⟨payload, hpayload⟩ : ∃ payload : Bytes, payload
    = ((handle.ring s.files).image.circle.rotate ((handle.ring s.files).cursor + frame.header)).take frame.payload :=
      ⟨_, rfl⟩
  have hahead : ({ frame } : Reader).ahead (handle.ring s.files) ({ frame } : Reader).remaining = payload := by
    rw [hpayload, Reader.ahead, hoffset]
    rfl
  obtain ⟨behind, rfl, hin, heach⟩ :=
    takeEach_eq (s := s.lend { name, handle, stream := .reading { frame } }) rfl h.toOpens
      ⟨hrange, Nat.zero_le _⟩ lengths
  have hrun : (s.startRead name).1.takeEach lengths
      = ({ s.release name with loans := { name, handle, stream := .reading behind } :: s.loans },
        (pieces payload lengths).map fun piece => (piece, .ok piece.length)) := by
    rw [startRead_of_frame hfind hend hframe, ← hahead]
    exact heach
  rw [← hpayload]
  refine ⟨?_, ?_, ?_, ?_⟩
  · rw [hrun]
  · rw [hrun, List.map_map, ← flatten_pieces]
    exact congrArg List.flatten (List.map_id _)
  · rw [hrun, finish_reading h hin, hoffset]
    exact ⟨rfl, leaves_return s name handle _⟩
  · rw [hrun, leave_reading]
    exact leaves_return s name handle handle.cursor

/-- the record of an accepted frame, for any of the ways to read -/
theorem yields_of_frame (hfind : s.find? name = some handle) (h : (handle.ring s.files).Sound)
    (hend : (handle.ring s.files).cursor ≠ (handle.ring s.files).image.stop)
    (hframe : (handle.ring s.files).frameAt (handle.ring s.files).cursor (handle.ring s.files).image.stop = .ok frame) :
    ∃ payload, s.Yields name handle payload ((handle.cursor + frame.length) % handle.capacity) := by
  have hrecord := Ring.record_eq h
  have hread := Ring.read_eq h
  have hdelivers := delivers_of_frame hfind h hend hframe
  simp only [if_neg hend, hframe] at hrecord hread
  obtain ⟨payload, hpayload⟩ : ∃ payload,
    ((handle.ring s.files).image.circle.rotate ((handle.ring s.files).cursor + frame.header)).take frame.payload
      = payload :=
      ⟨_, rfl⟩
  have hlength : frame.payload = payload.length := by
    have hlt := Ring.payload_le h.toOpens h.cursor_lt h.stop_lt hframe
    rw [← hpayload, List.length_take, h.length_rotate, Nat.min_eq_left hlt.le]
  simp only [hpayload] at hrecord hread hdelivers
  simp only [hlength] at hread
  refine ⟨payload, ?_, ?_, ?_, ?_, ?_, hdelivers⟩
  · simp only [query, hfind, Ring.nextSize_of_frame hend hframe, hlength]
    rfl
  · simp only [Session.record, change, hfind, hrecord, Ring.after]
    exact ⟨rfl, leaves_save s name handle _⟩
  · intro buffer hlarge
    simp only [Session.read, hfind, hread, if_neg (Nat.not_lt_of_le hlarge), Ring.after]
    exact ⟨rfl, leaves_save s name handle _⟩
  · intro buffer hsmall
    simp only [Session.read, hfind, hread, if_pos hsmall, Ring.after, refuse]
    exact ⟨⟨_, rfl, rfl, rfl⟩, leaves_save s name handle handle.cursor⟩
  · rw [startRead_of_frame hfind hend hframe]

end Reading

end Session

/-! ## Every handle -/

/-- **All ways to read agree.** For whatever handle on a ring file, with whatever data: asking for the length of the
next record, reading it, reading it into a buffer and beginning to read it in pieces find nothing, or the same corrupt
frame, together, and then nothing changes. Otherwise all of them find the same record. It fills a buffer that is long
enough from the front, a buffer that is too short stays as it is, and whatever pieces are asked for are consecutive
pieces of it. The cursor is behind it in the end, but for a buffer that is too short and for a record in pieces that is
abandoned. -/
theorem read_paths_agree {s : Session} {name : String} {handle : Handle} (hfind : s.find? name = some handle)
    (hsound : (handle.ring s.files).Sound) :
    s.Withholds name handle (.ok ())
      ∨ (∃ report, report.kind = .corruptFrame ∧ s.Withholds name handle (.error (.refused report)))
      ∨ ∃ payload cursor, s.Yields name handle payload cursor := by
  rcases Ring.next_cases hsound with hend | ⟨refusal, hkind, hcorrupt⟩ | ⟨hend, frame, hframe⟩
  · exact Or.inl (Session.withholds_of_ring hfind hend)
  · exact Or.inr (Or.inl ⟨_, (refusal.kind_report _).trans hkind, Session.withholds_of_ring hfind hcorrupt⟩)
  · obtain ⟨payload, hyields⟩ := Session.yields_of_frame hfind hsound hend hframe
    exact Or.inr (Or.inr ⟨payload, _, hyields⟩)

/-- a handle before a record whose prefix and bytes go on over the end of the data -/
def straddlingSession : Session :=
  { files := straddlingFile
    handles := [("r", { path := FileSystem.singleName, node := 0, access := .read, capacity := 8, cursor := 7 })] }

theorem read_paths_agree_straddling :
    ∃ handle, (straddlingSession.find? "r" = some handle ∧ (handle.ring straddlingSession.files).Sound)
      ∧ straddlingSession.Yields "r" handle [0xAA, 0xBB] 3 := by
  obtain ⟨handle, hhandle⟩ : ∃ handle : Handle,
    handle = { path := FileSystem.singleName, node := 0, access := .read, capacity := 8, cursor := 7 } := ⟨_, rfl⟩
  have hfind : straddlingSession.find? "r" = some handle := by
    rw [hhandle]
    decide
  have hopen : Handle.openRing straddlingSession.files FileSystem.singleName .read = .ok handle := by
    rw [hhandle]
    decide +kernel
  have hfile : (straddlingSession.files.image handle.node).size ≤ Image.maxSize := by
    rw [hhandle]
    decide
  have hcursor : handle.cursor < handle.capacity := by
    rw [hhandle]
    decide
  obtain ⟨-, hopens, -⟩ := Handle.of_openRing hopen hfile
  have hsound : (handle.ring straddlingSession.files).Sound := ⟨hopens, hcursor⟩
  have hrecord : (straddlingSession.record "r").2 = .ok (some [0xAA, 0xBB]) := by decide +kernel
  have hmoved : ((straddlingSession.record "r").1.find? "r").map Handle.cursor = some 3 := by decide +kernel
  refine ⟨handle, ⟨hfind, hsound⟩, ?_⟩
  rcases read_paths_agree hfind hsound with hnone | ⟨report, -, hcorrupt⟩ | ⟨payload, cursor, hyields⟩
  · cases hrecord.symm.trans hnone.record.1
  · cases hrecord.symm.trans hcorrupt.record.1
  · obtain rfl : payload = [0xAA, 0xBB] := by simpa using hyields.record.1.symm.trans hrecord
    rw [hyields.record.2.self] at hmoved
    obtain rfl : cursor = 3 := Option.some.inj hmoved
    exact hyields

end CircularLog
