/-
Appending touches free space alone. On a ring that has just been made and has one handle that appends, whatever has
happened since: a record goes to the bytes behind the stop offset, of which none holds a record that is kept, and the
byte in front of the start offset stays free. Nothing else in the file changes but the two offsets, each at its time.

- `Circle.way_behind`: how far a place is from the end of a stretch, seen from its beginning.
- `Session.Confines`: what the changes of one request keep to.
- `appends_touch_free_space`: so for every request, after any others.
-/
import CircularLog.Proofs.Delivery
import CircularLog.Proofs.Edits

namespace CircularLog

/-! ## Places outside a stretch -/

namespace Circle

variable {capacity start stop spot frame : Nat}

/-- from the end of a stretch on -/
theorem way_behind (hstart : start < capacity) (hstop : stop < capacity) (hspot : spot < capacity) :
    way capacity stop spot = (way capacity start spot + capacity - way capacity start stop) % capacity := by
  have hlt : way capacity start stop < capacity := way_lt hstart
  have hpast := way_add_past hstart hspot (show way capacity start stop ≤ way capacity start spot + capacity by omega)
  rwa [add_way hstart hstop] at hpast

/-- what lies on the stretch is not soon behind it -/
theorem le_way_of_way_lt (hstart : start < capacity) (hstop : stop < capacity) (hspot : spot < capacity)
    (hroom : way capacity start stop + frame < capacity) (hinside : way capacity start spot < way capacity start stop) :
    frame ≤ way capacity stop spot := by
  rw [way_behind hstart hstop hspot, Nat.mod_eq_of_lt (by omega)]
  omega

/-- and neither is the place in front of it -/
theorem le_way_pred (hstart : start < capacity) (hstop : stop < capacity)
    (hroom : way capacity start stop + frame < capacity) :
    frame ≤ way capacity stop ((start + capacity - 1) % capacity) := by
  have hpred : start + capacity - 1 = start + (capacity - 1) := by omega
  have hlast : way capacity start ((start + capacity - 1) % capacity) = capacity - 1 := by
    rw [hpred]
    exact way_add hstart (by omega)
  have hlt : way capacity start stop < capacity := way_lt hstart
  have hturn : capacity - 1 + capacity - way capacity start stop
      = capacity - 1 - way capacity start stop + capacity := by omega
  rw [way_behind hstart hstop (Nat.mod_lt _ (by omega)), hlast, hturn, Nat.add_mod_right, Nat.mod_eq_of_lt (by omega)]
  omega

end Circle

/-- when the start offset has been at each of these, the next frame leaves a byte of the circle free -/
structure Image.Clears (image : Image) (capacity : Nat) (starts : List Nat) (frame : Nat) : Prop where
  start_lt : (image.edited (starts.map Edit.start)).start < capacity
  room : Circle.way capacity (image.edited (starts.map Edit.start)).start image.stop + frame < capacity

/-! ## One request -/

/-- whether the event can end with a record more -/
def Event.commits : Event → Bool
  | .append _ => true
  | .finish => true
  | _ => false

namespace Session

/-- the length of the record that a request appends, begins, or writes in pieces -/
def subject? (s : Session) : Request → Option Nat
  | .append _ payload => some payload.length
  | .startWrite _ total => some total
  | .put _ | .finish => (s.loans.head?.bind (·.stream.writer?)).map Writer.total
  | _ => none

/-- the changes of a request to a file: start offsets, then bytes, then a stop offset, all of them in free space -/
structure Confines (s : Session) (path : Path) (capacity : Nat) (request : Request) (image : Image) (starts : List Nat)
    (pieces : List (Nat × Bytes)) (stop : Option Nat) (frame : Nat) : Prop where
  edits_eq : s.edits request
    = starts.map Edit.start ++ pieces.map (fun piece => Edit.bytes piece.1 piece.2) ++ stop.toList.map Edit.stop
  /-- the stretch is as long as the frame of the record that the request is about -/
  frame_eq : s.edits request ≠ [] → (s.subject? request).map frameLength = some frame
  /-- all bytes go to the stretch that begins at the stop offset -/
  within : ∀ e ∈ s.edits request, e.Within capacity image.stop frame
  /-- and so, up to any of the changes, only these are other than they were; the length, the mark and the flags are the
  same -/
  spares : ∀ done, done <+: s.edits request → image.Spares (image.edited done) capacity image.stop frame
  /-- no record that is kept lies on the stretch -/
  apart : ∀ spot < capacity, Circle.way capacity (image.edited (starts.map Edit.start)).start spot
      < Circle.way capacity (image.edited (starts.map Edit.start)).start image.stop →
    frame ≤ Circle.way capacity image.stop spot
  /-- and the byte in front of the oldest of them does not either -/
  gap : frame
    ≤ Circle.way capacity image.stop (((image.edited (starts.map Edit.start)).start + capacity - 1) % capacity)
  /-- records are dropped for a record that is appended or begun -/
  drops : starts ≠ [] → request.begins
  /-- and the start offset stays when they have been -/
  start_eq : ∀ done, starts.map Edit.start <+: done → done <+: s.edits request →
    (image.edited done).start = (image.edited (starts.map Edit.start)).start
  /-- a record is committed by an append or the end of a record in pieces, when it succeeds -/
  commits : stop.isSome ↔ (request.event? s).any Event.commits ∧ (s.serve path request).2 = .ok ()
  /-- the stop offset moves behind the frame -/
  stop_mem : ∀ offset ∈ stop, offset = (image.stop + frame) % capacity
  /-- as the last of all changes -/
  stop_eq : ∀ done, done <+: s.edits request →
    (image.edited done).stop = if done = s.edits request then stop.getD image.stop else image.stop

section Confines

variable {s : Session} {path : Path} {node capacity frame : Nat} {request : Request} {image : Image} {starts : List Nat}
  {pieces : List (Nat × Bytes)} {stop : Option Nat} {q : Queue} {log : List Bytes} {event : Event}

/-- no start offset is stored after the last of them -/
theorem start_eq_of_edits (hsize : image.size = ControlBlock.size + capacity) {edits done : List Edit}
    (hedits : edits = starts.map Edit.start ++ pieces.map (fun piece => Edit.bytes piece.1 piece.2)
      ++ stop.toList.map Edit.stop)
    (hwithin : ∀ e ∈ edits, e.Within capacity image.stop frame) (hstarts : starts.map Edit.start <+: done)
    (hdone : done <+: edits) :
    (image.edited done).start = (image.edited (starts.map Edit.start)).start := by
  obtain ⟨rest, rfl⟩ := hstarts
  have hrest : rest <+: pieces.map (fun piece => Edit.bytes piece.1 piece.2) ++ stop.toList.map Edit.stop := by
    rw [hedits, List.append_assoc] at hdone
    exact (List.prefix_append_right_inj _).1 hdone
  have hdropped := Image.spares_edited hsize fun e he =>
    hwithin e (hdone.subset (List.mem_append_left rest he))
  rw [Image.edited_append]
  apply Image.start_edited (hdropped.size.trans hsize) fun e he => hwithin e (hdone.subset (List.mem_append_right _ he))
  rintro e he offset rfl
  simpa using hrest.subset he

/-- no stop offset is stored before the last change -/
theorem stop_eq_of_edits (hsize : image.size = ControlBlock.size + capacity) {edits done : List Edit}
    (hedits : edits = starts.map Edit.start ++ pieces.map (fun piece => Edit.bytes piece.1 piece.2)
      ++ stop.toList.map Edit.stop)
    (hwithin : ∀ e ∈ edits, e.Within capacity image.stop frame) (hstop : ∀ offset ∈ stop, offset < Word.bound)
    (hdone : done <+: edits) :
    (image.edited done).stop = if done = edits then stop.getD image.stop else image.stop := by
  have hblock : ControlBlock.size ≤ image.size := by omega
  have hnone : ∀ others : List Edit, others <+: starts.map Edit.start
      ++ pieces.map (fun piece => Edit.bytes piece.1 piece.2) →
      ∀ e ∈ others, ∀ offset, e ≠ Edit.stop offset := by
    rintro others hothers e he offset rfl
    simpa using hothers.subset he
  have hbefore : ∀ others, others <+: starts.map Edit.start ++ pieces.map (fun piece => Edit.bytes piece.1 piece.2) →
      others <+: edits → (image.edited others).stop = image.stop := fun others hothers hfront =>
    Image.stop_edited hsize (fun e he => hwithin e (hfront.subset he)) (hnone others hothers)
  cases stop with
  | none =>
    rw [Option.toList_none, List.map_nil, List.append_nil] at hedits
    rw [Option.getD_none, ite_self]
    exact hbefore done (hedits ▸ hdone) hdone
  | some offset =>
    rw [Option.toList_some, List.map_singleton] at hedits
    by_cases hall : done = edits
    · have hfront : starts.map Edit.start ++ pieces.map (fun piece => Edit.bytes piece.1 piece.2) <+: edits :=
        hedits ▸ List.prefix_append _ _
      have hspared := Image.spares_edited hsize fun e he => hwithin e (hfront.subset he)
      rw [if_pos hall, hall, hedits, Image.edited_append, Image.edited_cons, Image.edited_nil, Option.getD_some]
      exact Image.stop_setStop (hblock.trans_eq hspared.size.symm) (hstop offset rfl)
    · rw [if_neg hall]
      rw [hedits] at hdone hall
      rcases List.prefix_concat_iff.1 hdone with rfl | hdone'
      · exact absurd rfl hall
      · exact hbefore done hdone' (hedits ▸ hdone)

/-- what is to be shown of the changes -/
theorem Confines.of_edits (hopens : image.Opens capacity)
    (hedits : s.edits request
      = starts.map Edit.start ++ pieces.map (fun piece => Edit.bytes piece.1 piece.2) ++ stop.toList.map Edit.stop)
    (hframe : (s.subject? request).map frameLength = some frame)
    (hwithin : ∀ piece ∈ pieces, (Edit.bytes piece.1 piece.2).Within capacity image.stop frame)
    (hclears : image.Clears capacity starts frame) (hdrops : starts ≠ [] → request.begins)
    (hcommits : stop.isSome ↔ (request.event? s).any Event.commits ∧ (s.serve path request).2 = .ok ())
    (hstop : ∀ offset ∈ stop, offset = (image.stop + frame) % capacity) :
    s.Confines path capacity request image starts pieces stop frame := by
  have hall : ∀ e ∈ s.edits request, e.Within capacity image.stop frame := by
    intro e he
    rw [hedits, List.mem_append, List.mem_append] at he
    rcases he with (he | he) | he
    · obtain ⟨offset, -, rfl⟩ := List.mem_map.1 he
      trivial
    · obtain ⟨piece, hpiece, rfl⟩ := List.mem_map.1 he
      exact hwithin piece hpiece
    · obtain ⟨offset, -, rfl⟩ := List.mem_map.1 he
      trivial
  have hbound : ∀ offset ∈ stop, offset < Word.bound := fun offset hoffset =>
    hstop offset hoffset ▸ hopens.lt_bound (Nat.mod_lt _ hopens.pos)
  exact
    { edits_eq := hedits
      frame_eq := fun _ => hframe
      within := hall
      spares := fun done hdone => Image.spares_edited hopens.size fun e he => hall e (hdone.subset he)
      apart := fun spot hspot hinside =>
        Circle.le_way_of_way_lt hclears.start_lt hopens.stop_lt hspot hclears.room hinside
      gap := Circle.le_way_pred hclears.start_lt hopens.stop_lt hclears.room
      drops := hdrops
      start_eq := fun done hstarts hdone => start_eq_of_edits hopens.size hedits hall hstarts hdone
      commits := hcommits
      stop_mem := hstop
      stop_eq := fun done hdone => stop_eq_of_edits hopens.size hedits hall hbound hdone }

/-- a request that changes nothing, and commits nothing -/
theorem Confines.nil (hedits : s.edits request = [])
    (hcommits : ¬((request.event? s).any Event.commits ∧ (s.serve path request).2 = .ok ())) :
    s.Confines path capacity request image [] [] none 0 := by
  have hnil : ∀ done, done <+: s.edits request → done = [] := fun done hdone => List.prefix_nil.1 (hedits ▸ hdone)
  exact
    { edits_eq := hedits
      frame_eq := fun hne => absurd hedits hne
      within := by
        rw [hedits]
        exact List.forall_mem_nil _
      spares := fun done hdone => by
        rw [hnil done hdone]
        exact .refl _ _ _ _
      apart := fun _ _ _ => Nat.zero_le _
      gap := Nat.zero_le _
      drops := fun hne => absurd rfl hne
      start_eq := fun done _ hdone => by
        rw [hnil done hdone]
        rfl
      commits := iff_of_false Bool.false_ne_true hcommits
      stop_mem := forall_mem_none
      stop_eq := fun done hdone => by
        rw [hnil done hdone, Image.edited_nil, Option.getD_none, ite_self] }

end Confines

end Session

/-! ## Room and transfers -/

/-- the segments of a transfer behind the place, as pieces -/
theorem Region.pieces_within {capacity place frame offset k : Nat} {data : Bytes} (hplace : place < capacity)
    (hoffset : offset % capacity = (place + k) % capacity) (hlength : k + data.length ≤ frame)
    (hframe : frame < capacity) :
    ∃ pieces : List (Nat × Bytes),
      Region.edits (Region.stretch capacity offset data.length) data
        = pieces.map (fun piece => Edit.bytes piece.1 piece.2)
        ∧ ∀ piece ∈ pieces, (Edit.bytes piece.1 piece.2).Within capacity place frame := by
  obtain ⟨pieces, hpieces⟩ := Region.edits_eq (Region.stretch capacity offset data.length) data
  have hwithin := Region.edits_within hplace hoffset hlength hframe
  rw [hpieces] at hwithin
  exact ⟨pieces, hpieces, fun piece hpiece => hwithin _ (List.mem_map_of_mem hpiece)⟩

namespace Ring

section Edits

variable {r : Ring} {records : List Bytes} {total : Nat} {payload written chunk : Bytes}

/-- room is made by moving the start offset -/
theorem Holds.room_edits (h : r.Holds records) (hfits : frameLength total < r.capacity) :
    ∃ (r₁ : Ring) (starts : List Nat), r.makeRoom total = (r₁, .ok ()) ∧ Same r r₁
      ∧ r.makeRoomEdits total = starts.map Edit.start ∧ r.image.Clears r.capacity starts (frameLength total) := by
  obtain ⟨r₁, hroom, hsame, hholds⟩ := h.makeRoom hfits
  obtain ⟨starts, hstarts⟩ := r.makeRoomEdits_eq total
  have himage := r.image_makeRoom total
  rw [hroom, hstarts] at himage
  have hstart := hholds.start_lt
  have hload := hholds.load_eq
  rw [load, hsame.capacity, hsame.stop] at hload
  rw [hsame.capacity] at hstart
  simp only at himage
  rw [himage] at hstart hload
  refine ⟨r₁, starts, hroom, hsame, hstarts, hstart, ?_⟩
  rw [hload]
  exact Queue.weight_room hfits records

theorem makeRoomEdits_of_not_fits (hlong : ¬frameLength total < r.capacity) : r.makeRoomEdits total = [] := by
  rw [makeRoomEdits, fitting_eq_error hlong]
  rfl

theorem appendEdits_of_not_fits (hlong : ¬frameLength payload.length < r.capacity) : r.appendEdits payload = [] := by
  rw [appendEdits, makeRoomEdits_of_not_fits hlong, makeRoom_of_not_fits hlong]
  rfl

/-- a record goes behind the stop offset, prefix first, and then the offset moves behind it -/
theorem Holds.appendEdits_eq (h : r.Holds records) (hfits : frameLength payload.length < r.capacity) :
    ∃ (starts : List Nat) (pieces : List (Nat × Bytes)),
      r.appendEdits payload = starts.map Edit.start ++ pieces.map (fun piece => Edit.bytes piece.1 piece.2)
          ++ [Edit.stop ((r.image.stop + frameLength payload.length) % r.capacity)]
        ∧ (∀ piece ∈ pieces, (Edit.bytes piece.1 piece.2).Within r.capacity r.image.stop (frameLength payload.length))
        ∧ r.image.Clears r.capacity starts (frameLength payload.length) := by
  obtain ⟨r₁, starts, hroom, hsame, hstarts, hclears⟩ := h.room_edits hfits
  have hparts := frameLength_eq payload.length
  have hheader : (Varint.encode payload.length).length = Varint.size payload.length :=
    Varint.length_encode (h.lt_bound (by omega))
  have hprefix : r.image.stop % r.capacity = (r.image.stop + 0) % r.capacity := rfl
  have hprefix_end : 0 + (Varint.encode payload.length).length ≤ frameLength payload.length := by omega
  have hrecord_end : Varint.size payload.length + payload.length ≤ frameLength payload.length := by omega
  obtain ⟨first, hfirst, hfirst_within⟩ := Region.pieces_within h.stop_lt hprefix hprefix_end hfits
  obtain ⟨later, hlater, hlater_within⟩ := Region.pieces_within h.stop_lt rfl hrecord_end hfits
  rw [hheader] at hfirst
  have hvacancy := vacancy_eq hsame.sound.toOpens (hsame.capacity ▸ hfits)
  rw [hsame.capacity, hsame.stop] at hvacancy
  refine ⟨starts, first ++ later, ?_, ?_, hclears⟩
  · rw [appendEdits, hstarts, hroom]
    simp only [hvacancy, placeEdits, hfirst, hlater, List.map_append, List.append_assoc]
  · intro piece hpiece
    rcases List.mem_append.1 hpiece with hmem | hmem
    · exact hfirst_within piece hmem
    · exact hlater_within piece hmem

/-- while a record is written in pieces, there is room for it -/
theorem Writes.clears (h : r.Writes records total written) : r.image.Clears r.capacity [] (frameLength total) where
  start_lt := h.start_lt
  room := by
    have hload := h.load_eq
    rw [load] at hload
    rw [List.map_nil, Image.edited_nil, hload]
    exact h.fits

theorem Writes.putEdits_too_long (h : r.Writes records total written) (hlong : total < written.length + chunk.length) :
    (Writer.behind r total written).putEdits r chunk
      = refuse (.chunkTooLong chunk.length (total - written.length) total) := by
  have hwritten := h.written_le
  have hremaining : (Writer.behind r total written).remaining < chunk.length := by
    simp only [Writer.behind]
    omega
  simp only [Writer.putEdits, if_pos hremaining, refuse, bind, Except.bind]
  rfl

/-- a piece goes behind the pieces before it -/
theorem Writes.putEdits_eq (h : r.Writes records total written) (hfits : written.length + chunk.length ≤ total) :
    ∃ pieces : List (Nat × Bytes),
      (Writer.behind r total written).putEdits r chunk = .ok (pieces.map fun piece => Edit.bytes piece.1 piece.2)
        ∧ ∀ piece ∈ pieces, (Edit.bytes piece.1 piece.2).Within r.capacity r.image.stop (frameLength total) := by
  have hremaining : ¬(Writer.behind r total written).remaining < chunk.length := by
    simp only [Writer.behind]
    omega
  by_cases hempty : chunk.isEmpty
  · refine ⟨[], ?_, List.forall_mem_nil _⟩
    simp only [Writer.putEdits, if_neg hremaining, if_pos hempty, bind, Except.bind, pure, Except.pure, List.map_nil]
  · have hparts := frameLength_eq total
    have hroom := h.fits
    have hnext : (Writer.behind r total written).next < r.capacity := Nat.mod_lt _ h.pos
    have hplace : (Writer.behind r total written).next % r.capacity
        = (r.image.stop + (Varint.size total + written.length)) % r.capacity := by
      rw [Writer.behind, Nat.mod_mod, Nat.add_assoc]
    have hend : Varint.size total + written.length + chunk.length ≤ frameLength total := by omega
    obtain ⟨pieces, hpieces, hwithin⟩ := Region.pieces_within h.stop_lt hplace hend (by omega)
    have hlocate := h.locate_eq (Writer.behind r total written).next (show chunk.length ≤ r.capacity by omega)
    have hadvance := h.advance_eq hnext (show chunk.length ≤ r.capacity by omega)
    refine ⟨pieces, ?_, hwithin⟩
    simp only [Writer.putEdits, if_neg hremaining, if_neg hempty, hlocate, hadvance, hpieces, bind, Except.bind, pure,
      Except.pure]

theorem Writes.finishEdits_short (h : r.Writes records total written) (hshort : written.length ≠ total) :
    (Writer.behind r total written).finishEdits r = refuse (.unfinished (total - written.length) total) := by
  have hremaining : (Writer.behind r total written).remaining ≠ 0 := by
    have := h.written_le
    simp only [Writer.behind]
    omega
  simp only [Writer.finishEdits, if_pos hremaining, refuse, bind, Except.bind]
  rfl

/-- the prefix goes to the stop offset, and then the offset moves behind the record -/
theorem Writes.finishEdits_eq (h : r.Writes records written.length written) :
    ∃ pieces : List (Nat × Bytes),
      (Writer.behind r written.length written).finishEdits r
          = .ok (pieces.map (fun piece => Edit.bytes piece.1 piece.2)
            ++ [Edit.stop ((r.image.stop + frameLength written.length) % r.capacity)])
        ∧ ∀ piece ∈ pieces, (Edit.bytes piece.1 piece.2).Within r.capacity r.image.stop
          (frameLength written.length) := by
  have hremaining : ¬written.length - written.length ≠ 0 := by omega
  have hparts := frameLength_eq written.length
  have hroom := h.fits
  have hheader : (Varint.encode written.length).length = Varint.size written.length :=
    Varint.length_encode (h.lt_bound (by omega))
  have hplace : r.image.stop % r.capacity = (r.image.stop + 0) % r.capacity := rfl
  have hend : 0 + (Varint.encode written.length).length ≤ frameLength written.length := by omega
  obtain ⟨pieces, hpieces, hwithin⟩ := Region.pieces_within h.stop_lt hplace hend (by omega)
  have hlocate := h.locate_eq r.image.stop (show (Varint.encode written.length).length ≤ r.capacity by omega)
  have hadvance := h.advance_eq h.stop_lt (show frameLength written.length ≤ r.capacity by omega)
  have hmod : Word.mod ((r.image.stop + frameLength written.length) % r.capacity) r.capacity
      = .ok ((r.image.stop + frameLength written.length) % r.capacity) := by
    rw [Word.mod_eq_ok (Nat.ne_of_gt h.pos), Nat.mod_mod]
  refine ⟨pieces, ?_, hwithin⟩
  simp only [Writer.finishEdits, if_neg hremaining, Writer.behind, hlocate, hadvance, hmod, hpieces, bind,
    Except.bind, pure, Except.pure]

end Edits

end Ring

/-! ## Any request -/

namespace Session

section Requests

variable {s : Session} {path : Path} {node capacity : Nat} {name : String} {handle : Handle} {q : Queue}
  {request : Request} {writer : Writer} {rest : List Loan}

theorem confines_append (h : s.Reflects path node capacity q) (hnone : q.pending = none)
    (happender : s.appender name = .ok handle) (payload : Bytes) :
    ∃ starts pieces stop frame, s.Confines path capacity (.append name payload)
      (s.files.image node) starts pieces stop frame := by
  have hhandle := h.find? (Reflects.appender_ok happender)
  have hring := Reflects.ring_eq (s := s) hhandle
  have hholds := h.holds hhandle.cursor_lt
  have hanswer : (s.serve path (.append name payload)).2 = _ := (h.append hnone happender payload).2
  have hevent : Request.event? s (.append name payload) = some (.append payload) := by
    simp only [Request.event?, happender, Except.toOption, Option.map_some]
  have hedits : s.edits (.append name payload) = (handle.ring s.files).appendEdits payload := by
    simp only [edits, happender]
  rw [hring] at hedits
  by_cases hfits : frameLength payload.length < capacity
  · obtain ⟨starts, pieces, hchanges, hwithin, hclears⟩ := hholds.appendEdits_eq hfits
    rw [Queue.step, if_pos hfits] at hanswer
    refine ⟨starts, pieces, some _, _, .of_edits hholds.toOpens (hedits.trans hchanges) rfl hwithin hclears
      (fun _ => rfl) ?_ ?_⟩
    · exact iff_of_true rfl ⟨by rw [hevent]; rfl, hanswer⟩
    · rintro _ ⟨⟩
      rfl
  · rw [Queue.step, if_neg hfits] at hanswer
    refine ⟨[], [], none, 0, .nil (hedits.trans (Ring.appendEdits_of_not_fits hfits)) ?_⟩
    rintro ⟨-, hok⟩
    cases hanswer.symm.trans hok

theorem confines_startWrite (h : s.Reflects path node capacity q) (happender : s.appender name = .ok handle)
    (total : Nat) :
    ∃ starts pieces stop frame, s.Confines path capacity (.startWrite name total)
      (s.files.image node) starts pieces stop frame := by
  have hhandle := h.find? (Reflects.appender_ok happender)
  have hring := Reflects.ring_eq (s := s) hhandle
  have hholds := h.holds hhandle.cursor_lt
  have hevent : Request.event? s (.startWrite name total) = some (.start total) := by
    simp only [Request.event?, happender, Except.toOption, Option.map_some]
  have hquiet : ¬((Request.event? s (.startWrite name total)).any Event.commits
      ∧ (s.serve path (.startWrite name total)).2 = .ok ()) := by
    rw [hevent]
    exact fun hcommits => Bool.false_ne_true hcommits.1
  have hedits : s.edits (.startWrite name total) = (handle.ring s.files).makeRoomEdits total := by
    simp only [edits, happender]
  rw [hring] at hedits
  by_cases hfits : frameLength total < capacity
  · obtain ⟨r, starts, -, -, hstarts, hclears⟩ := hholds.room_edits hfits
    refine ⟨starts, [], none, _, .of_edits hholds.toOpens ?_ rfl (List.forall_mem_nil _) hclears (fun _ => rfl)
      (iff_of_false Bool.false_ne_true hquiet) forall_mem_none⟩
    simpa using hedits.trans hstarts
  · exact ⟨[], [], none, 0, .nil (hedits.trans (Ring.makeRoomEdits_of_not_fits hfits)) hquiet⟩

theorem confines_put (h : s.Reflects path node capacity q)
    (hloans : s.loans = { name, handle, stream := .writing writer } :: rest) (chunk : Bytes) :
    ∃ starts pieces stop frame, s.Confines path capacity (.put chunk)
      (s.files.image node) starts pieces stop frame := by
  obtain ⟨hhandle, -, -, records, total, written, -, rfl, hwrites⟩ := h.latest hloans
  have hring := Reflects.ring_eq (s := s) hhandle
  rw [hring] at hloans hwrites
  have hquiet : ¬((Request.event? s (.put chunk)).any Event.commits ∧ (s.serve path (.put chunk)).2 = .ok ()) := by
    rintro ⟨hcommits, -⟩
    rw [Request.event?] at hcommits
    split at hcommits <;> cases hcommits
  have hedits : s.edits (.put chunk)
      = ((Writer.behind { image := s.files.image node, capacity, cursor := handle.cursor } total
      written).putEdits { image := s.files.image node, capacity, cursor := handle.cursor } chunk).toOption.getD [] := by
    simp only [edits, hloans, hring]
  by_cases hlong : total < written.length + chunk.length
  · rw [hwrites.putEdits_too_long hlong] at hedits
    exact ⟨[], [], none, 0, .nil hedits hquiet⟩
  · obtain ⟨pieces, hpieces, hwithin⟩ := hwrites.putEdits_eq (Nat.le_of_not_lt hlong)
    rw [hpieces] at hedits
    refine ⟨[], pieces, none, frameLength total, .of_edits hwrites.toOpens ?_ ?_ hwithin hwrites.clears
      (fun hne => absurd rfl hne) (iff_of_false Bool.false_ne_true hquiet) forall_mem_none⟩
    · simpa [Except.toOption] using hedits
    · simp only [subject?, hloans]
      rfl

theorem confines_finish (h : s.Reflects path node capacity q)
    (hloans : s.loans = { name, handle, stream := .writing writer } :: rest) :
    ∃ starts pieces stop frame, s.Confines path capacity .finish (s.files.image node) starts pieces stop frame := by
  have hanswer : (s.serve path .finish).2 = _ := (h.finish hloans).2
  have hwriting : s.writing = true := by
    rw [writing, hloans]
    rfl
  have hevent : Request.event? s .finish = some .finish := by simp only [Request.event?, hwriting, if_true]
  obtain ⟨hhandle, -, -, records, total, written, rfl, rfl, hwrites⟩ := h.latest hloans
  have hring := Reflects.ring_eq (s := s) hhandle
  rw [hring] at hloans hwrites
  have hedits : s.edits .finish
      = ((Writer.behind { image := s.files.image node, capacity, cursor := handle.cursor } total
      written).finishEdits { image := s.files.image node, capacity, cursor := handle.cursor }).toOption.getD [] := by
    simp only [edits, hloans, hring]
  by_cases hall : written.length = total
  · subst hall
    obtain ⟨pieces, hpieces, hwithin⟩ := hwrites.finishEdits_eq
    rw [hpieces] at hedits
    rw [Queue.step] at hanswer
    simp only [if_pos] at hanswer
    refine ⟨[], pieces, some _, frameLength written.length, .of_edits hwrites.toOpens hedits ?_ hwithin hwrites.clears
      (fun hne => absurd rfl hne) (iff_of_true rfl ⟨by rw [hevent]; rfl, hanswer⟩) ?_⟩
    · simp only [subject?, hloans]
      rfl
    · rintro _ ⟨⟩
      rfl
  · rw [hwrites.finishEdits_short hall] at hedits
    rw [Queue.step] at hanswer
    simp only [if_neg hall] at hanswer
    refine ⟨[], [], none, 0, .nil hedits ?_⟩
    rintro ⟨-, hok⟩
    cases hanswer.symm.trans hok

/-- **One request** keeps to free space. -/
theorem confines (h : s.Reflects path node capacity q) (hadmits : s.Admits request) :
    ∃ starts pieces stop frame, s.Confines path capacity request (s.files.image node) starts pieces stop frame := by
  cases hevent : request.event? s with
  | none =>
    refine ⟨[], [], none, 0, .nil (edits_eq_nil hevent) ?_⟩
    rw [hevent]
    exact fun hcommits => Bool.false_ne_true hcommits.1
  | some event =>
    cases asks_of_event hevent with
    | append happender => exact confines_append h (h.pending_none (hadmits (by rw [hevent]; rfl))) happender _
    | start happender => exact confines_startWrite h happender _
    | put hloans => exact confines_put h hloans _
    | finish hloans => exact confines_finish h hloans
    | leave hloans =>
      refine ⟨[], [], none, 0, .nil rfl ?_⟩
      rw [hevent]
      exact fun hcommits => Bool.false_ne_true hcommits.1

/-- the bytes of the file that the path leads to -/
theorem read_eq_of_based (h : s.Based path node capacity) : s.files.read path = .ok (s.files.image node) := by
  obtain ⟨place, hlookup⟩ := h.lookup
  rw [FileSystem.read, FileSystem.node, hlookup]
  rfl

end Requests

end Session

/-- **Appending touches free space alone.** After any requests to the one handle that appends to a new ring, and to any
others that read it, one more request makes these changes in the file, in this order: it stores start offsets, as it
drops records; it writes bytes to a stretch behind the stop offset that no kept record reaches; and it stores a stop
offset, if it commits. -/
theorem appends_touch_free_space {fs : FileSystem} {path : Path} {capacity : Nat} {owner : String} {s : Session}
    (hcreate : Session.create { files := fs } owner path capacity = (s, .ok ())) {requests : List Session.Request}
    (hguests : ∀ request ∈ requests, request.guest owner) (request : Session.Request) :
    ∃ image, (s.run path requests).1.files.read path = .ok image
      ∧ ((s.run path requests).1.serve path request).1.files.read path
        = .ok (image.edited ((s.run path requests).1.edits request))
      ∧ ∃ starts pieces stop frame,
        (s.run path requests).1.Confines path capacity request image starts pieces stop frame := by
  obtain ⟨node, handle, htracks, -⟩ := Session.tracks_create hcreate
  obtain ⟨hlogged, hsingle⟩ := htracks.toLogged.run htracks.single hguests
  have hserved := (hlogged.toInRange.effect (Session.effect path _ request)).1
  have hfiles := Session.serve_files hlogged.toInRange request
  have himage := Session.read_eq_of_based hserved.toBased
  rw [hfiles, FileSystem.image_setImage hlogged.node_lt, ← hfiles] at himage
  exact ⟨_, Session.read_eq_of_based hlogged.toBased, himage,
    Session.confines hlogged.toReflects (hsingle.admits request)⟩

/-- a record is being written that goes on over the end of the data, behind two others -/
def unfinishedRequests : List Session.Request :=
  [.append "a" [1, 2, 3], .append "a" [4], .openRing "r" .read, .startWrite "a" 3, .put [5, 6]]

theorem appends_touch_free_space_unfinished :
    Session.create {} "a" FileSystem.singleName 9 = (smallSession, .ok ())
      ∧ (∀ request ∈ unfinishedRequests, request.guest "a")
      ∧ (smallSession.run FileSystem.singleName unfinishedRequests).1.edits (.put [7]) = [.bytes 24 [7]]
      ∧ ∃ image, (smallSession.run FileSystem.singleName unfinishedRequests).1.files.read FileSystem.singleName
        = .ok image
        ∧ ((smallSession.run FileSystem.singleName unfinishedRequests).1.serve FileSystem.singleName
          (.put [7])).1.files.read
            FileSystem.singleName
          = .ok (image.edited ((smallSession.run FileSystem.singleName unfinishedRequests).1.edits (.put [7])))
        ∧ ∃ starts pieces stop frame, (smallSession.run FileSystem.singleName unfinishedRequests).1.Confines
            FileSystem.singleName 9 (.put [7]) image starts pieces stop frame := by
  have hmade : Session.create {} "a" FileSystem.singleName 9 = (smallSession, .ok ()) := by decide +kernel
  have hguests : ∀ request ∈ unfinishedRequests, request.guest "a" := by decide
  have hedits : (smallSession.run FileSystem.singleName unfinishedRequests).1.edits (.put [7]) = [.bytes 24 [7]] := by
    decide +kernel
  exact ⟨hmade, hguests, hedits, appends_touch_free_space hmade hguests (.put [7])⟩

end CircularLog
