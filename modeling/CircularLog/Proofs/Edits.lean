/-
What a request changes in the file, change by change and in the order in which the changes are made. An append stores
one start offset after another as it drops records, then writes bytes, and last stores the stop offset.

- `Session.edits`: the changes of one request.
- `Session.serve_files`: made one after another, they give the file that the request leaves.
- `Image.Spares`: what changes leave alone that keep to a stretch of the circle; `Image.spares_edited`: any number of
  them.
- `Region.edits_within`: a transfer keeps to the stretch that it is for.
-/
import CircularLog.Proofs.Committed

namespace CircularLog

/-- one change of a file -/
inductive Edit where
  /-- the start offset is stored -/
  | start (offset : Nat)
  | bytes (position : Nat) (data : Bytes)
  /-- the stop offset is stored -/
  | stop (offset : Nat)
deriving DecidableEq, Repr

namespace Image

def edit (image : Image) : Edit → Image
  | .start offset => image.setStart offset
  | .bytes position data => image.write position data
  | .stop offset => image.setStop offset

/-- the file after the changes -/
def edited (image : Image) (edits : List Edit) : Image := edits.foldl edit image

@[simp] theorem edited_nil (image : Image) : image.edited [] = image := rfl

@[simp] theorem edited_cons (image : Image) (e : Edit) (edits : List Edit) :
    image.edited (e :: edits) = (image.edit e).edited edits := rfl

theorem edited_append (image : Image) (first later : List Edit) :
    image.edited (first ++ later) = (image.edited first).edited later := List.foldl_append

end Image

/-! ## Changes that keep to a stretch of the circle -/

/-- whatever bytes are written, they go to the data, less than `frame` behind the place -/
def Edit.Within (capacity place frame : Nat) : Edit → Prop
  | .bytes position data => ∀ i < data.length, ∃ spot < capacity, position + i = ControlBlock.size + spot
      ∧ Circle.way capacity place spot < frame
  | _ => True

namespace Image

/-- the other file has the same mark and flags, and the same data except for the `frame` bytes from the place on -/
structure Spares (image other : Image) (capacity place frame : Nat) : Prop where
  size : other.size = image.size
  marked : other.toBytes.take ControlBlock.mark.length = image.toBytes.take ControlBlock.mark.length
  flags : other.flags = image.flags
  outside : ∀ spot < capacity, frame ≤ Circle.way capacity place spot → other.circle[spot]? = image.circle[spot]?

section Spares

variable {image other last : Image} {capacity place frame position : Nat} {data : Bytes} {e : Edit} {edits : List Edit}

theorem Spares.refl (image : Image) (capacity place frame : Nat) : image.Spares image capacity place frame :=
  ⟨rfl, rfl, rfl, fun _ _ _ => rfl⟩

theorem Spares.trans (h : image.Spares other capacity place frame) (h' : other.Spares last capacity place frame) :
    image.Spares last capacity place frame where
  size := h'.size.trans h.size
  marked := h'.marked.trans h.marked
  flags := h'.flags.trans h.flags
  outside spot hspot hfar := (h'.outside spot hspot hfar).trans (h.outside spot hspot hfar)

/-- where the bytes go, if there are any -/
theorem within_bytes (h : (Edit.bytes position data).Within capacity place frame) (hdata : data ≠ []) :
    ∃ spot, position = ControlBlock.size + spot ∧ spot + data.length ≤ capacity := by
  have hpos : 0 < data.length := List.length_pos_iff.2 hdata
  obtain ⟨first, -, hfirst, -⟩ := h 0 hpos
  obtain ⟨last, hlast, hlength, -⟩ := h (data.length - 1) (by omega)
  exact ⟨first, hfirst, by omega⟩

/-- such bytes leave the control block alone -/
theorem head_edit (hsize : image.size = ControlBlock.size + capacity)
    (h : (Edit.bytes position data).Within capacity place frame) : (image.write position data).head = image.head := by
  by_cases hdata : data = []
  · rw [hdata, write_nil]
  · obtain ⟨spot, rfl, hfits⟩ := within_bytes h hdata
    exact (Region.write_within (by omega)).2.1

theorem spares_edit (hsize : image.size = ControlBlock.size + capacity) (h : e.Within capacity place frame) :
    image.Spares (image.edit e) capacity place frame := by
  have hblock : ControlBlock.size ≤ image.size := by omega
  cases e with
  | start offset =>
    exact ⟨size_setStart hblock, mark_setStart hblock, number_store_front hblock (by decide) (by decide),
      fun spot _ _ => by rw [edit, circle_setStart hblock]⟩
  | stop offset =>
    exact ⟨size_setStop hblock, mark_setStop hblock, number_store_front hblock (by decide) (by decide),
      fun spot _ _ => by rw [edit, circle_setStop hblock]⟩
  | bytes position data =>
    by_cases hdata : data = []
    · rw [edit, hdata, write_nil]
      exact .refl _ _ _ _
    · have hhead := head_edit hsize h
      obtain ⟨first, rfl, hfits⟩ := within_bytes h hdata
      have hwithin : ControlBlock.size + first + data.length ≤ image.size := by omega
      obtain ⟨hsame, -, hlaid⟩ := Region.write_within hwithin
      refine ⟨hsame, ?_, flags_congr hhead, ?_⟩
      · rw [edit, ← mark_head, hhead, mark_head]
      · intro spot hspot hfar
        rw [edit, hlaid]
        apply getElem?_lay
        · rw [length_circle_eq hsize]
          exact hfits
        · -- a byte between the first and the last is near the place
          by_contra hinside
          obtain ⟨near, -, hnear, hlt⟩ := h (spot - first) (by omega)
          obtain rfl : near = spot := by omega
          omega

theorem spares_edited (hsize : image.size = ControlBlock.size + capacity)
    (h : ∀ e ∈ edits, e.Within capacity place frame) : image.Spares (image.edited edits) capacity place frame := by
  induction edits generalizing image with
  | nil => exact .refl _ _ _ _
  | cons e edits ih =>
    obtain ⟨hfirst, hrest⟩ := List.forall_mem_cons.1 h
    have hedit := spares_edit hsize hfirst
    exact hedit.trans (ih (hedit.size.trans hsize) hrest)

/-- what none of the edits changes is not changed by all of them -/
theorem edited_keeps {α : Type} (field : Image → α) (hsize : image.size = ControlBlock.size + capacity)
    (h : ∀ e ∈ edits, e.Within capacity place frame)
    (hkeeps : ∀ e ∈ edits, ∀ other : Image, other.size = ControlBlock.size + capacity →
      field (other.edit e) = field other) :
    field (image.edited edits) = field image := by
  induction edits generalizing image with
  | nil => rfl
  | cons e edits ih =>
    obtain ⟨hfirst, hrest⟩ := List.forall_mem_cons.1 h
    obtain ⟨hkeep, hkeeps⟩ := List.forall_mem_cons.1 hkeeps
    rw [edited_cons, ih ((spares_edit hsize hfirst).size.trans hsize) hrest hkeeps, hkeep image hsize]

/-- the start offset stays, if none is stored -/
theorem start_edited (hsize : image.size = ControlBlock.size + capacity)
    (h : ∀ e ∈ edits, e.Within capacity place frame) (hnone : ∀ e ∈ edits, ∀ offset, e ≠ .start offset) :
    (image.edited edits).start = image.start := by
  apply edited_keeps Image.start hsize h
  intro e he other hother
  cases e with
  | start offset => exact absurd rfl (hnone _ he offset)
  | bytes position data => exact start_congr (head_edit hother (h _ he))
  | stop offset => exact start_setStop (by omega)

/-- and so does the stop offset -/
theorem stop_edited (hsize : image.size = ControlBlock.size + capacity)
    (h : ∀ e ∈ edits, e.Within capacity place frame) (hnone : ∀ e ∈ edits, ∀ offset, e ≠ .stop offset) :
    (image.edited edits).stop = image.stop := by
  apply edited_keeps Image.stop hsize h
  intro e he other hother
  cases e with
  | start offset => exact stop_setStart (by omega)
  | bytes position data => exact stop_congr (head_edit hother (h _ he))
  | stop offset => exact absurd rfl (hnone _ he offset)

end Spares

end Image

/-! ### Transfers -/

namespace Region

/-- the bytes of a transfer, segment by segment -/
def edits : List Segment → Bytes → List Edit
  | [], _ => []
  | segment :: rest, data =>
    .bytes segment.position (data.take segment.length) :: edits rest (data.drop segment.length)

theorem edited_scatter (image : Image) (segments : List Segment) (data : Bytes) :
    scatter image segments data = image.edited (edits segments data) := by
  induction segments generalizing image data with
  | nil => rfl
  | cons segment rest ih => exact ih _ _

section Edits

variable {capacity place frame offset k : Nat} {data : Bytes}

/-- the bytes of a transfer that starts `k` behind the place and ends less than `frame` behind it -/
theorem edits_within (hplace : place < capacity) (hoffset : offset % capacity = (place + k) % capacity)
    (hlength : k + data.length ≤ frame) (hframe : frame < capacity) :
    ∀ e ∈ edits (stretch capacity offset data.length) data, e.Within capacity place frame := by
  have hpos : 0 < capacity := Nat.zero_lt_of_lt hplace
  have hfirst : offset % capacity < capacity := Nat.mod_lt _ hpos
  have hbase : ControlBlock.size = Span.base := rfl
  -- how far a byte is behind the place
  have hway : ∀ i spot, i < data.length → spot < capacity → spot = (offset + i) % capacity →
      Circle.way capacity place spot < frame := by
    intro i spot hi hspot hmod
    have hplaced : (offset + i) % capacity = (place + (k + i)) % capacity := by
      rw [← Nat.add_assoc]
      exact Nat.ModEq.add_right i hoffset
    rw [hmod, hplaced, Circle.way_add hplace (by omega)]
    omega
  have hahead : ∀ i, i < capacity - offset % capacity → offset % capacity + i = (offset + i) % capacity := by
    intro i hi
    rw [← Nat.mod_add_mod, Nat.mod_eq_of_lt (show offset % capacity + i < capacity by omega)]
  rw [stretch]
  split
  · rename_i hroom
    simp only [edits, List.take_of_length_le le_rfl, List.mem_singleton, forall_eq]
    intro i hi
    exact ⟨offset % capacity + i, by omega, by omega, hway i _ hi (by omega) (hahead i (by omega))⟩
  · rename_i hroom
    simp only [edits, List.mem_cons, List.not_mem_nil, or_false, forall_eq_or_imp, forall_eq]
    constructor
    · intro i hi
      rw [List.length_take] at hi
      exact ⟨offset % capacity + i, by omega, by omega, hway i _ (by omega) (by omega) (hahead i (by omega))⟩
    · -- behind the end of the data they go on at the beginning
      intro i hi
      rw [List.length_take, List.length_drop] at hi
      refine ⟨i, by omega, by omega, hway (capacity - offset % capacity + i) i (by omega) (by omega) ?_⟩
      have hturn : offset % capacity + (capacity - offset % capacity + i) = i + capacity := by omega
      rw [← Nat.mod_add_mod, hturn, Nat.add_mod_right, Nat.mod_eq_of_lt (by omega)]

theorem edits_eq (segments : List Segment) (data : Bytes) :
    ∃ pieces : List (Nat × Bytes), edits segments data = pieces.map fun piece => .bytes piece.1 piece.2 := by
  induction segments generalizing data with
  | nil => exact ⟨[], rfl⟩
  | cons segment rest ih =>
    obtain ⟨pieces, hpieces⟩ := ih (data.drop segment.length)
    exact ⟨(segment.position, data.take segment.length) :: pieces, by rw [edits, hpieces, List.map_cons]⟩

end Edits

end Region

/-! ## The changes of each operation -/

namespace Ring

def evictEdits (r : Ring) : List Edit :=
  match r.oldest with
  | .error _ => []
  | .ok (_, next) => [.start next]

def reserveEdits : Nat → Ring → Nat → List Edit
  | 0, _, _ => []
  | fuel + 1, r, length =>
    match r.available with
    | .error _ => []
    | .ok free =>
      if length < free then []
      else
        r.evictEdits ++
          match r.evict with
          | (_, .error _) => []
          | (r, .ok ()) => reserveEdits fuel r length

def makeRoomEdits (r : Ring) (payload : Nat) : List Edit :=
  match r.fitting payload with
  | .error _ => []
  | .ok length => reserveEdits (r.capacity + 2) r length

def placeEdits (vacancy : Vacancy) (payload : Bytes) : List Edit :=
  Region.edits vacancy.header (Varint.encode payload.length) ++ Region.edits vacancy.payload payload
    ++ [.stop vacancy.next]

def appendEdits (r : Ring) (payload : Bytes) : List Edit :=
  r.makeRoomEdits payload.length ++
    match r.makeRoom payload.length with
    | (_, .error _) => []
    | (r, .ok ()) =>
      match r.vacancy payload.length with
      | .error _ => []
      | .ok vacancy => placeEdits vacancy payload

section Edits

variable (r : Ring)

theorem image_evict : r.evict.1.image = r.image.edited r.evictEdits := by
  rw [evict, evictEdits]
  rcases r.oldest with stop | ⟨frame, next⟩
  · rfl
  · rcases hpassed : Circle.distance r.capacity frame.offset r.cursor with stop | passed
    · simp only [hpassed]
      rfl
    · simp only [hpassed]
      rfl

-- without this the two sides are compared by computing what is free
attribute [local irreducible] available evict evictEdits

theorem reserveEdits_zero (length : Nat) : reserveEdits 0 r length = [] := by
  rfl

theorem reserveEdits_succ (fuel length : Nat) :
    reserveEdits (fuel + 1) r length
      = match r.available with
        | .error _ => []
        | .ok free =>
          if length < free then []
          else
            r.evictEdits ++
              match r.evict with
              | (_, .error _) => []
              | (r, .ok ()) => reserveEdits fuel r length := by
  rfl

theorem image_reserveWithin (fuel length : Nat) :
    (reserveWithin fuel r length).1.image = r.image.edited (reserveEdits fuel r length) := by
  induction fuel generalizing r with
  | zero => rfl
  | succ fuel ih =>
    rw [reserveWithin_succ, reserveEdits_succ]
    cases r.available with
    | error stop => rfl
    | ok free =>
      by_cases hroom : length < free
      · simp only [if_pos hroom, Image.edited_nil]
      · have hevict := r.image_evict
        simp only [if_neg hroom, Image.edited_append, ← hevict]
        rcases r.evict with ⟨next, stop | ⟨⟩⟩
        · rfl
        · exact ih next

theorem image_makeRoom (payload : Nat) : (r.makeRoom payload).1.image = r.image.edited (r.makeRoomEdits payload) := by
  rw [makeRoom, makeRoomEdits]
  cases r.fitting payload with
  | error stop => rfl
  | ok length => exact r.image_reserveWithin _ length

theorem image_append (payload : Bytes) : (r.append payload).1.image = r.image.edited (r.appendEdits payload) := by
  rw [append, appendEdits, Image.edited_append, ← image_makeRoom]
  rcases r.makeRoom payload.length with ⟨r₁, stop | ⟨⟩⟩
  · rfl
  · simp only
    rcases r₁.vacancy payload.length with stop | vacancy
    · rfl
    · simp only [place, placeEdits, Image.edited_append, ← Region.edited_scatter]
      rfl

/-- making room stores start offsets and nothing else -/
theorem reserveEdits_eq (fuel length : Nat) :
    ∃ starts : List Nat, reserveEdits fuel r length = starts.map Edit.start := by
  induction fuel generalizing r with
  | zero => exact ⟨[], reserveEdits_zero r length⟩
  | succ fuel ih =>
    rw [reserveEdits_succ]
    cases r.available with
    | error stop => exact ⟨[], rfl⟩
    | ok free =>
      by_cases hroom : length < free
      · exact ⟨[], if_pos hroom⟩
      · obtain ⟨first, hfirst⟩ : ∃ starts : List Nat, r.evictEdits = starts.map Edit.start := by
          rw [evictEdits]
          rcases r.oldest with stop | ⟨frame, next⟩
          · exact ⟨[], rfl⟩
          · exact ⟨[next], rfl⟩
        simp only [if_neg hroom, hfirst]
        rcases r.evict with ⟨next, stop | ⟨⟩⟩
        · exact ⟨first, List.append_nil _⟩
        · obtain ⟨later, hlater⟩ := ih next
          exact ⟨first ++ later, by simp only [hlater, List.map_append]⟩

theorem makeRoomEdits_eq (payload : Nat) : ∃ starts : List Nat, r.makeRoomEdits payload = starts.map Edit.start := by
  rw [makeRoomEdits]
  cases r.fitting payload with
  | error stop => exact ⟨[], rfl⟩
  | ok length => exact r.reserveEdits_eq _ length

end Edits

end Ring

namespace Writer

def putEdits (writer : Writer) (r : Ring) (chunk : Bytes) : Outcome (List Edit) := do
  if writer.remaining < chunk.length then refuse (.chunkTooLong chunk.length writer.remaining writer.total)
  if chunk.isEmpty then return []
  let segments ← Region.locate r.capacity writer.next chunk.length
  let _ ← Circle.advance r.capacity writer.next chunk.length
  return Region.edits segments chunk

def finishEdits (writer : Writer) (r : Ring) : Outcome (List Edit) := do
  if writer.remaining ≠ 0 then refuse (.unfinished writer.remaining writer.total)
  let segments ← Region.locate r.capacity writer.offset (Varint.encode writer.total).length
  let stop ← Circle.advance r.capacity writer.offset (frameLength writer.total)
  return Region.edits segments (Varint.encode writer.total) ++ [.stop (← Word.mod stop r.capacity)]

section Edits

variable (writer : Writer) (r : Ring) (chunk : Bytes)

/-- a record that is begun changes what making room for it changes -/
theorem image_start (total : Nat) : (Writer.start r total).1.image = (r.makeRoom total).1.image := by
  rw [start]
  rcases r.makeRoom total with ⟨r₁, stop | ⟨⟩⟩ <;> rfl

theorem put_edits :
    (writer.put r chunk).map Prod.fst
      = (writer.putEdits r chunk).map fun edits => { r with image := r.image.edited edits } := by
  simp only [put, putEdits, Region.write, Region.edited_scatter, bind, Except.bind, pure, Except.pure]
  by_cases hlong : writer.remaining < chunk.length
  · simp only [if_pos hlong, refuse, Except.map]
  · simp only [if_neg hlong]
    by_cases hempty : chunk.isEmpty
    · simp only [if_pos hempty, Except.map, Image.edited_nil]
    · simp only [if_neg hempty]
      rcases Region.locate r.capacity writer.next chunk.length with stop | segments
      · rfl
      · rcases Circle.advance r.capacity writer.next chunk.length with stop | next
        · rfl
        · rfl

theorem finish_edits :
    writer.finish r = (writer.finishEdits r).map fun edits => { r with image := r.image.edited edits } := by
  simp only [finish, finishEdits, Region.write, Region.edited_scatter, bind, Except.bind, pure, Except.pure]
  by_cases hmissing : writer.remaining ≠ 0
  · simp only [if_pos hmissing, refuse, Except.map]
  · simp only [if_neg hmissing]
    rcases Region.locate r.capacity writer.offset (Varint.encode writer.total).length with stop | segments
    · rfl
    · rcases Circle.advance r.capacity writer.offset (frameLength writer.total) with stop | place
      · rfl
      · simp only
        rcases Word.mod place r.capacity with stop | last
        · rfl
        · simp only [Except.map, Image.edited_append]
          rfl

end Edits

end Writer

/-! ## The changes of a request -/

namespace Session

/-- what a request changes in the file of its handle, in this order -/
def edits (s : Session) : Request → List Edit
  | .append name payload =>
    match s.appender name with
    | .error _ => []
    | .ok handle => (handle.ring s.files).appendEdits payload
  | .startWrite name total =>
    match s.appender name with
    | .error _ => []
    | .ok handle => (handle.ring s.files).makeRoomEdits total
  | .put chunk =>
    match s.loans with
    | { handle, stream := .writing writer, .. } :: _ => (writer.putEdits (handle.ring s.files) chunk).toOption.getD []
    | _ => []
  | .finish =>
    match s.loans with
    | { handle, stream := .writing writer, .. } :: _ => (writer.finishEdits (handle.ring s.files)).toOption.getD []
    | _ => []
  | _ => []

section Edits

variable {s : Session} {path : Path} {node capacity : Nat} {request : Request} {event : Event}

/-- a request that asks nothing of the queue changes nothing -/
theorem edits_eq_nil (hevent : request.event? s = none) : s.edits request = [] := by
  have hreads : s.writing = false → ∀ name handle writer rest,
      s.loans ≠ { name, handle, stream := .writing writer } :: rest := by
    intro hwriting name handle writer rest hloans
    rw [writing, hloans] at hwriting
    cases hwriting
  cases request with
  | append name payload =>
    rw [edits]
    cases happender : s.appender name with
    | error denial => rfl
    | ok handle => simp [Request.event?, happender, Except.toOption] at hevent
  | startWrite name total =>
    rw [edits]
    cases happender : s.appender name with
    | error denial => rfl
    | ok handle => simp [Request.event?, happender, Except.toOption] at hevent
  | put chunk =>
    have hwriting : s.writing = false := by simpa [Request.event?] using hevent
    rw [edits]
    split
    · exact absurd ‹_› (hreads hwriting _ _ _ _)
    · rfl
  | finish =>
    have hwriting : s.writing = false := by simpa [Request.event?] using hevent
    rw [edits]
    split
    · exact absurd ‹_› (hreads hwriting _ _ _ _)
    · rfl
  | _ => rfl

/-- what asks something of the queue makes its changes in the file of its handle -/
theorem serve_files_of_asks (h : s.Based path node capacity) (hasks : s.Asks request event) :
    (s.serve path request).1.files = s.files.setImage node ((s.files.image node).edited (s.edits request)) := by
  have himage : ∀ handle : Handle, handle.At path node capacity → (handle.ring s.files).image = s.files.image node :=
    fun handle hhandle => by rw [Reflects.ring_eq hhandle]
  cases hasks with
  | @append name payload handle happender =>
    have hhandle : handle.At path node capacity := h.handles _ (find?_mem (Reflects.appender_ok happender))
    simp only [Session.serve, append_of_appender happender, Session.save, Ring.save, Session.bind,
      Session.release, edits, happender, Ring.image_append, himage handle hhandle]
    rw [hhandle.node_eq]
  | @start name total handle happender =>
    have hhandle : handle.At path node capacity := h.handles _ (find?_mem (Reflects.appender_ok happender))
    have hroom := (handle.ring s.files).image_makeRoom total
    rw [himage handle hhandle, ← Writer.image_start] at hroom
    simp only [Session.serve, Reflects.startWrite_eq happender, edits, happender, ← hroom]
    rw [← hhandle.node_eq]
    rcases Writer.start (handle.ring s.files) total with ⟨r, stop | writer⟩ <;> rfl
  | @put chunk name handle writer rest hloans =>
    have hhandle : handle.At path node capacity := h.loans _ (hloans ▸ List.mem_cons_self)
    have hput := writer.put_edits (handle.ring s.files) chunk
    simp only [Session.serve, Session.put, hloans, edits]
    cases hedits : writer.putEdits (handle.ring s.files) chunk with
    | error stop =>
      rw [hedits] at hput
      cases hresult : writer.put (handle.ring s.files) chunk with
      | error stop => exact (FileSystem.setImage_image s.files node).symm
      | ok pair => rw [hresult] at hput; cases hput
    | ok edits =>
      rw [hedits] at hput
      cases hresult : writer.put (handle.ring s.files) chunk with
      | error stop => rw [hresult] at hput; cases hput
      | ok pair =>
        obtain ⟨r, next⟩ := pair
        rw [hresult] at hput
        obtain rfl : r = _ := Except.ok.inj hput
        simp only [Ring.save, himage handle hhandle, hhandle.node_eq]
        rfl
  | @finish name handle writer rest hloans =>
    have hhandle : handle.At path node capacity := h.loans _ (hloans ▸ List.mem_cons_self)
    simp only [Session.serve, finish_eq hloans, Request.conclude, writer.finish_edits (handle.ring s.files),
      edits, hloans]
    cases writer.finishEdits (handle.ring s.files) with
    | error stop => exact (FileSystem.setImage_image s.files node).symm
    | ok edits =>
      simp only [Except.map, Session.save, Ring.save, Session.bind, Session.release, himage handle hhandle,
        hhandle.node_eq]
      rfl
  | leave hloans =>
    simp only [Session.serve, Session.leave, hloans, edits, Image.edited_nil, FileSystem.setImage_image]
    rfl

/-- **The changes of a request** are all that it does to the file. -/
theorem serve_files (h : s.InRange path node capacity) (request : Request) :
    (s.serve path request).1.files = s.files.setImage node ((s.files.image node).edited (s.edits request)) := by
  cases hevent : request.event? s with
  | none =>
    rw [edits_eq_nil hevent, Image.edited_nil, FileSystem.setImage_image]
    exact ((s.effect path request).quiet h hevent "").1
  | some event => exact serve_files_of_asks h.toBased (asks_of_event hevent)

end Edits

end Session

end CircularLog
