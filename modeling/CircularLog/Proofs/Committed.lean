/-
The records that were committed, and how far each handle has come in them. One handle appends to a ring that has just
been made, and any number of others read. The stop offset is then the one behind the log of all committed records, and a
handle is at the offset of an index in it.

- `Session.Logged`: the file and the log; `Session.Logged.stop_serve`: where a request leaves the stop offset;
  `Session.Logged.run`: what any requests leave.
- `Handle.Before`: a handle in front of the record with some index.
- `Ring.Holds.makeRoom_offset`: a handle that makes room, and has to move for it.
- `Progress`: how a handle moves, and what is read meanwhile; `Session.Tracks.serve`: so for every request.
-/
import CircularLog.Proofs.Holders

namespace CircularLog

/-! ## Where the stop offset goes -/

namespace Ring

section Stop

variable {r next : Ring} {q : Queue} {records : List Bytes} {payload chunk : Bytes} {writer written : Writer}
  {total : Nat}

theorem stop_placed (h : r.image.Opens r.capacity) (hfits : frameLength payload.length < r.capacity) :
    (r.placed payload).stop = (r.image.stop + frameLength payload.length) % r.capacity := by
  obtain ⟨laid, hsize, -, -, hplaced⟩ := scatter_frame h hfits
  rw [hplaced]
  exact Image.stop_setStop (h.block_le.trans_eq hsize.symm) (h.lt_bound (Nat.mod_lt _ h.pos))

/-- appending moves it by the frame, if the record is committed -/
theorem Holds.stop_append (h : r.Holds records) (q : Queue) (payload : Bytes) :
    (r.append payload).1.image.stop = (r.image.stop + weight (q.commit r.capacity (.append payload))) % r.capacity := by
  rw [append_eq h.toSound, Queue.commit]
  by_cases hfits : frameLength payload.length < r.capacity
  · obtain ⟨r₁, hroom, hsame, hholds⟩ := h.makeRoom hfits
    have hfits₁ : frameLength payload.length < r₁.capacity := by rwa [hsame.capacity]
    rw [hroom, if_pos hfits, weight_cons, weight_nil, Nat.add_zero, ← hsame.stop, ← hsame.capacity]
    exact stop_placed hholds.toOpens hfits₁
  · rw [makeRoom_of_not_fits hfits, if_neg hfits, weight_nil, Nat.add_zero, Nat.mod_eq_of_lt h.stop_lt]
    rfl

theorem stop_startWrite (h : r.Sound) (total : Nat) : (Writer.start r total).1.image.stop = r.image.stop := by
  have hsame := same_makeRoom h total
  rw [Writer.start_eq h]
  rcases hroom : r.makeRoom total with ⟨r₁, stop | ⟨⟩⟩
  · rw [hroom] at hsame
    exact hsame.stop
  · rw [hroom] at hsame
    exact hsame.stop

theorem stop_put (h : r.image.Opens r.capacity) (hwriter : writer.InRange r.capacity)
    (hput : writer.put r chunk = .ok (next, written)) : next.image.stop = r.image.stop := by
  rw [Writer.put_eq h hwriter] at hput
  by_cases hlong : writer.remaining < chunk.length
  · rw [if_pos hlong] at hput
    cases hput
  · have hparts := frameLength_eq writer.total
    have hfits := hwriter.fits
    have hremaining := hwriter.remaining_le
    rw [if_neg hlong] at hput
    obtain ⟨-, hhead, -⟩ := Region.scatter_stretch writer.next h.size h.pos (show chunk.length ≤ r.capacity by omega)
    cases hput
    exact Image.stop_congr hhead

/-- the end of a record in pieces moves it by the frame -/
theorem stop_finish (h : r.image.Opens r.capacity) (hwriter : writer.InRange r.capacity)
    (hfinish : writer.finish r = .ok next) :
    next.image.stop = (writer.offset + frameLength writer.total) % r.capacity := by
  rw [Writer.finish_eq h hwriter] at hfinish
  by_cases hmissing : writer.remaining ≠ 0
  · rw [if_pos hmissing] at hfinish
    cases hfinish
  · have hparts := frameLength_eq writer.total
    have hfits := hwriter.fits
    have hheader : (Varint.encode writer.total).length = Varint.size writer.total :=
      Varint.length_encode (h.lt_bound (by omega))
    have hprefixed := h.scatter writer.offset (show (Varint.encode writer.total).length ≤ r.capacity by omega)
    rw [hheader] at hprefixed
    rw [if_neg hmissing] at hfinish
    rw [← Except.ok.inj hfinish]
    exact Image.stop_setStop hprefixed.block_le (h.lt_bound (Nat.mod_lt _ h.pos))

end Stop

end Ring

/-! ## The file and the log -/

namespace Session

/-- the file holds what the queue holds, the last records of the log, and the stop offset is the one behind the log -/
structure Logged (s : Session) (path : Path) (node capacity : Nat) (q : Queue) (log : List Bytes) : Prop extends
    s.Reflects path node capacity q, s.InRange path node capacity where
  suffix : q.records <:+ log
  marks : (s.files.image node).Marks capacity log

namespace Logged

section Logged

variable {s : Session} {path : Path} {node capacity : Nat} {q : Queue} {log : List Bytes} {name : String}
  {handle : Handle} {request : Request} {event : Event}

/-- what the handle of a request leaves in the file -/
theorem image_eq (h : s.Logged path node capacity q log) (hhandle : handle.At path node capacity) (image : Image) :
    (s.files.setImage handle.node image).image node = image := by
  rw [hhandle.node_eq]
  exact FileSystem.image_setImage h.node_lt

theorem stop_stay (h : s.Logged path node capacity q log) (hcommit : q.commit capacity event = []) :
    (s.files.image node).stop = ((s.files.image node).stop + weight (q.commit capacity event)) % capacity := by
  rw [hcommit, weight_nil, Nat.add_zero, Nat.mod_eq_of_lt h.opens.stop_lt]

theorem stop_append (h : s.Logged path node capacity q log) (happender : s.appender name = .ok handle)
    (payload : Bytes) :
    ((s.append name payload).1.files.image node).stop
      = ((s.files.image node).stop + weight (q.commit capacity (.append payload))) % capacity := by
  have hhandle := h.handles _ (find?_mem (Reflects.appender_ok happender))
  have hstop := (h.ring_holds hhandle).stop_append q payload
  rw [append_of_appender happender]
  simp only [Session.save, Ring.save, Session.bind, Session.release]
  rw [h.image_eq hhandle, hstop, Reflects.ring_eq hhandle]

theorem stop_startWrite (h : s.Logged path node capacity q log) (happender : s.appender name = .ok handle)
    (total : Nat) :
    ((s.startWrite name total).1.files.image node).stop = (s.files.image node).stop := by
  have hhandle := h.handles _ (find?_mem (Reflects.appender_ok happender))
  have hstop := Ring.stop_startWrite (h.toInRange.sound hhandle) total
  have hfile : ((handle.ring s.files).image).stop = (s.files.image node).stop := by rw [Reflects.ring_eq hhandle]
  rw [Reflects.startWrite_eq happender]
  rcases hstart : Writer.start (handle.ring s.files) total with ⟨r, stop | writer⟩
  · rw [hstart] at hstop
    simp only [Session.save, Ring.save, Session.bind, Session.release]
    rw [h.image_eq hhandle, hstop, hfile]
  · rw [hstart] at hstop
    simp only [Session.lend, Session.save, Ring.save, Session.bind, Session.release]
    rw [h.image_eq hhandle, hstop, hfile]

section Writing

variable {writer : Writer} {rest : List Loan}

theorem stop_put (h : s.Logged path node capacity q log)
    (hloans : s.loans = { name, handle, stream := .writing writer } :: rest) (chunk : Bytes) :
    ((s.put chunk).1.files.image node).stop = (s.files.image node).stop := by
  have hmem : { name, handle, stream := .writing writer } ∈ s.loans := hloans ▸ List.mem_cons_self
  have hhandle := h.loans _ hmem
  have hrange : writer.InRange (handle.ring s.files).capacity := by
    rw [Reflects.ring_eq hhandle]
    exact h.streams _ hmem
  have hfile : ((handle.ring s.files).image).stop = (s.files.image node).stop := by rw [Reflects.ring_eq hhandle]
  simp only [Session.put, hloans]
  cases hput : writer.put (handle.ring s.files) chunk with
  | error stop => rfl
  | ok pair =>
    have hstop := Ring.stop_put (h.toInRange.sound hhandle).toOpens hrange hput
    simp only [Ring.save]
    rw [h.image_eq hhandle, hstop, hfile]

/-- the record is committed if it is complete -/
theorem stop_finish (h : s.Logged path node capacity q log)
    (hloans : s.loans = { name, handle, stream := .writing writer } :: rest) :
    (s.finish.1.files.image node).stop
      = ((s.files.image node).stop + weight (q.commit capacity .finish)) % capacity := by
  have hmem : { name, handle, stream := .writing writer } ∈ s.loans := hloans ▸ List.mem_cons_self
  have hrange : writer.InRange capacity := h.streams _ hmem
  obtain ⟨hhandle, -, -, records, total, written, rfl, rfl, hwrites⟩ := h.toReflects.latest hloans
  rw [finish_eq hloans, Request.conclude]
  by_cases hall : written.length = total
  · subst hall
    obtain ⟨image, hfinish, -⟩ := hwrites.finish
    have hcapacity : (handle.ring s.files).capacity = capacity := hhandle.capacity_eq
    have hstop := Ring.stop_finish hwrites.toOpens (hcapacity.symm ▸ hrange) hfinish
    rw [hfinish, Queue.commit]
    simp only [Session.save, Ring.save, Session.bind, Session.release, if_pos, weight_cons, weight_nil, Nat.add_zero]
    rw [h.image_eq hhandle]
    simp only [Reflects.ring_eq hhandle, Writer.behind] at hstop
    exact hstop
  · have hcommit : Queue.commit capacity { records, pending := some (total, written) } .finish = [] := by
      simp only [Queue.commit, if_neg hall]
    rw [hwrites.finish_short hall]
    exact h.stop_stay hcommit

end Writing

/-- **The stop offset** moves by the frame of the record that is committed, if one is. -/
theorem stop_serve (h : s.Logged path node capacity q log) (hasks : s.Asks request event) :
    ((s.serve path request).1.files.image node).stop
      = ((s.files.image node).stop + weight (q.commit capacity event)) % capacity := by
  cases hasks with
  | append happender => exact h.stop_append happender _
  | start happender => exact (h.stop_startWrite happender _).trans (h.stop_stay rfl)
  | put hloans => exact (h.stop_put hloans _).trans (h.stop_stay rfl)
  | finish hloans => exact h.stop_finish hloans
  | leave hloans =>
    simp only [Session.serve, Session.leave, hloans]
    exact h.stop_stay rfl

/-- a request that asks nothing of the queue -/
theorem serve_quiet (h : s.Logged path node capacity q log) (hevent : request.event? s = none) :
    (s.serve path request).1.Logged path node capacity q log := by
  have hreflects := h.toReflects.serve request (by simp [Admits, hevent])
  have hrange := (h.toInRange.effect (s.effect path request)).1
  obtain ⟨hfiles, -⟩ := (s.effect path request).quiet h.toInRange hevent ""
  have hmarks : ((s.serve path request).1.files.image node).Marks capacity log := by
    rw [hfiles]
    exact h.marks
  rw [hevent] at hreflects
  exact { toReflects := hreflects, opens := hrange.opens, streams := hrange.streams, suffix := h.suffix,
          marks := hmarks }

/-- a request that asks something of the queue: the log grows by what is committed -/
theorem serve_event (h : s.Logged path node capacity q log) (hadmits : s.Admits request)
    (hevent : request.event? s = some event) :
    (s.serve path request).1.Logged path node capacity (q.step capacity event).1 (log ++ q.commit capacity event) := by
  have hreflects := h.toReflects.serve request hadmits
  have hrange := (h.toInRange.effect (s.effect path request)).1
  have hstop : ((s.serve path request).1.files.image node).stop = _ := h.stop_serve (asks_of_event hevent)
  have hmarks : ((s.serve path request).1.files.image node).Marks capacity (log ++ q.commit capacity event) := by
    rw [Image.Marks, hstop, weight_append, h.marks, Nat.mod_add_mod]
  rw [hevent] at hreflects
  exact
    { toReflects := hreflects.1, opens := hrange.opens, streams := hrange.streams
      suffix := Queue.step_suffix h.suffix event, marks := hmarks }

end Logged

end Logged

/-! ## Runs -/

/-- what the requests ask of the queue -/
def events (path : Path) (s : Session) (requests : List Request) : List Event := (s.run path requests).2.map Prod.fst

/-- the records that the requests commit, in their order -/
def committed (path : Path) (capacity : Nat) (s : Session) (requests : List Request) : List Bytes :=
  Queue.log capacity {} (s.events path requests)

/-- the committed records that the ring still has after the requests -/
def kept (path : Path) (capacity : Nat) (s : Session) (requests : List Request) : List Bytes :=
  (Queue.run capacity {} (s.events path requests)).1.records

section Run

variable {s : Session} {path : Path} {node capacity : Nat} {q : Queue} {log : List Bytes} {name : String}

theorem run_append (path : Path) (s : Session) (requests more : List Request) :
    (s.run path (requests ++ more)).1 = ((s.run path requests).1.run path more).1 := by
  induction requests generalizing s with
  | nil => rfl
  | cons request requests ih => exact ih _

theorem events_cons (path : Path) (s : Session) (request : Request) (requests : List Request) :
    s.events path (request :: requests) = (request.event? s).toList
      ++ (s.serve path request).1.events path requests := by
  simp only [events, Session.run, List.map_append, List.map_map]
  congr 1
  exact List.map_id _

/-- **Any number of requests** -/
theorem Logged.run (h : s.Logged path node capacity q log) (hsingle : s.Single name) {requests : List Request}
    (hguests : ∀ request ∈ requests, request.guest name) :
    (s.run path requests).1.Logged path node capacity (q.run capacity (s.events path requests)).1
        (log ++ q.log capacity (s.events path requests))
      ∧ (s.run path requests).1.Single name := by
  induction requests generalizing s q log with
  | nil =>
    refine ⟨?_, hsingle⟩
    have hnone : s.events path [] = [] := rfl
    rw [hnone, Queue.log, List.append_nil]
    exact h
  | cons request requests ih =>
    obtain ⟨hguest, hguests⟩ := List.forall_mem_cons.1 hguests
    have hnext := hsingle.effect h.toInRange (s.effect path request) hguest
    rw [events_cons]
    cases hevent : request.event? s with
    | none => exact ih (h.serve_quiet hevent) hnext hguests
    | some event =>
      have hrun := ih (h.serve_event (hsingle.admits request) hevent) hnext hguests
      rw [List.append_assoc] at hrun
      exact hrun

end Run

end Session

/-! ## Where a handle is -/

theorem drop_eq_cons {log more : List Bytes} {payload : Bytes} {index : Nat} (h : log.drop index = payload :: more) :
    index + 1 ≤ log.length ∧ log[index]? = some payload ∧ more = log.drop (index + 1) := by
  have hindex : index < log.length := by
    by_contra hpast
    rw [List.drop_of_length_le (Nat.le_of_not_lt hpast)] at h
    cases h
  rw [List.drop_eq_getElem_cons hindex] at h
  obtain ⟨hpayload, hmore⟩ := List.cons.inj h
  exact ⟨hindex, hpayload ▸ List.getElem?_eq_getElem hindex, hmore.symm⟩

/-- the handle is in front of the record with this index in the log, and if it reads that record in pieces, this piece
has been delivered -/
structure Handle.Before (handle : Handle) (was : Option Stream) (log : List Bytes) (index : Nat) (piece : Bytes) :
    Prop where
  index_le : index ≤ log.length
  cursor_eq : handle.cursor = offsetOf handle.capacity log index
  reading : ∀ reader, was = some (.reading reader) →
    ∃ payload, log[index]? = some payload ∧ reader.Follows handle.cursor payload piece

namespace Handle.Before

section Before

open Session

variable {s : Session} {path : Path} {node capacity index : Nat} {q : Queue} {log : List Bytes} {handle : Handle}
  {was : Option Stream} {piece : Bytes}

/-- what is committed later is behind it -/
theorem more (h : handle.Before was log index piece) (more : List Bytes) :
    handle.Before was (log ++ more) index piece where
  index_le := by
    rw [List.length_append]
    exact Nat.le_add_right_of_le h.index_le
  cursor_eq := h.cursor_eq.trans (offsetOf_append _ h.index_le).symm
  reading reader hwas := by
    obtain ⟨payload, hpayload, hfollows⟩ := h.reading reader hwas
    obtain ⟨hlt, -⟩ := List.getElem?_eq_some_iff.1 hpayload
    exact ⟨payload, (List.getElem?_append_left hlt).trans hpayload, hfollows⟩

/-- where nothing in front of it is gone, that is what it reads -/
theorem stands (h : handle.Before was log index piece) (hlogged : s.Logged path node capacity q log)
    (hhandle : handle.At path node capacity) (hgone : q.gone log ≤ index) :
    (handle.ring s.files).Stands was (log.drop index) piece where
  lies := by
    have hholds := hlogged.holds hhandle.cursor_lt
    have hlies := hlogged.marks.lies hlogged.opens hholds.lies hlogged.suffix hgone
    have hcursor := h.cursor_eq
    rw [hhandle.capacity_eq] at hcursor
    rw [Reflects.ring_eq hhandle]
    simp only [hcursor]
    exact hlies
  reading reader hwas := by
    obtain ⟨payload, hpayload, hfollows⟩ := h.reading reader hwas
    obtain ⟨hlt, rfl⟩ := List.getElem?_eq_some_iff.1 hpayload
    exact ⟨_, _, List.drop_eq_getElem_cons hlt, hfollows⟩

theorem of_stands (hlogged : s.Logged path node capacity q log) (hhandle : handle.At path node capacity)
    (hindex : index ≤ log.length) (h : (handle.ring s.files).Stands was (log.drop index) piece) :
    handle.Before was log index piece where
  index_le := hindex
  cursor_eq := by
    have hlies := h.lies
    rw [Reflects.ring_eq hhandle] at hlies
    rw [hhandle.capacity_eq]
    exact hlogged.marks.eq_offsetOf hlies hhandle.cursor_lt
  reading reader hwas := by
    obtain ⟨payload, more, hdrop, hfollows⟩ := h.reading reader hwas
    refine ⟨payload, ?_, hfollows⟩
    rw [← List.head?_drop, hdrop]
    rfl

end Before

end Handle.Before

/-! ## A handle that appends -/

namespace Ring

section Makes

open Session

variable {r next : Ring} {records log : List Bytes} {index total : Nat} {name : String} {payload : Bytes}
  {writer : Writer} {request : Session.Request} {now : Option Stream} {result : Outcome Answer}

/-- the handle that makes room stays where it is, or is moved in front of the oldest record that is left -/
theorem Holds.makeRoom_offset (h : r.Holds records) (hmarks : r.image.Marks r.capacity log) (hsuffix : records <:+ log)
    (hcursor : r.cursor = offsetOf r.capacity log index) (hindex : index ≤ log.length)
    (hgone : log.length - records.length ≤ index)
    (hfits : frameLength total < r.capacity) :
    (r.makeRoom total).1.cursor
      = offsetOf r.capacity log
        (max index (log.length - (Queue.room r.capacity (frameLength total) records).length)) := by
  have hsame := same_makeRoom h.toSound total
  have hlies := hmarks.lies h.toOpens h.lies hsuffix hgone
  rw [← hcursor] at hlies
  have hrest : log.drop index <:+ records := Queue.suffix_of_gone_le (q := { records }) hsuffix hgone
  obtain ⟨rest, hlies₁, hshorter, hlength⟩ := h.makeRoom_cursor hfits hlies hrest
  -- what is left in front of it is what the log has from that index on
  have hroom := (Queue.room_suffix r.capacity (frameLength total) records).length_le
  have hlog := hsuffix.length_le
  rw [List.length_drop] at hlength
  have hbehind : log.length - rest.length
      = max index (log.length - (Queue.room r.capacity (frameLength total) records).length) := by omega
  have hdrop := List.suffix_iff_eq_drop.1 (hshorter.trans (List.drop_suffix index log))
  rw [hbehind] at hdrop
  rw [hdrop] at hlies₁
  have hmarks₁ : (r.makeRoom total).1.image.Marks r.capacity log := hsame.stop.trans hmarks
  exact hmarks₁.eq_offsetOf hlies₁ (hsame.capacity ▸ hsame.sound.cursor_lt)

/-- placing a record leaves the cursor where it is -/
theorem cursor_of_append (h : r.Sound)
    (hact : Session.Request.act r (.append name payload) none = some (next, now, result)) :
    next.cursor = (r.makeRoom payload.length).1.cursor ∧ ∀ reader, now ≠ some (.reading reader) := by
  cases hact
  rw [append_eq h]
  rcases r.makeRoom payload.length with ⟨r₁, stop | ⟨⟩⟩
  · exact ⟨rfl, by simp⟩
  · exact ⟨rfl, by simp⟩

theorem cursor_of_startWrite (h : r.Sound)
    (hact : Session.Request.act r (.startWrite name total) none = some (next, now, result)) :
    next.cursor = (r.makeRoom total).1.cursor ∧ ∀ reader, now ≠ some (.reading reader) := by
  rw [Session.Request.act, Writer.start_eq h] at hact
  rcases hroom : r.makeRoom total with ⟨r₁, stop | ⟨⟩⟩
  · simp only [hroom, Option.some.injEq, Prod.mk.injEq] at hact
    obtain ⟨rfl, rfl, rfl⟩ := hact
    exact ⟨rfl, by simp⟩
  · simp only [hroom, Option.some.injEq, Prod.mk.injEq] at hact
    obtain ⟨rfl, rfl, rfl⟩ := hact
    exact ⟨rfl, by simp⟩

/-- and so do the pieces of a record and its end -/
theorem cursor_of_writing (h : r.image.Opens r.capacity) (hwriter : writer.InRange r.capacity)
    (hact : request.act r (some (.writing writer)) = some (next, now, result)) :
    next.cursor = r.cursor ∧ ∀ reader, now ≠ some (.reading reader) := by
  cases request with
  | put chunk =>
    rw [Session.Request.act, Writer.put_eq h hwriter] at hact
    by_cases hlong : writer.remaining < chunk.length
    · rw [if_pos hlong] at hact
      cases hact
      exact ⟨rfl, by simp⟩
    · rw [if_neg hlong] at hact
      cases hact
      exact ⟨rfl, by simp⟩
  | finish =>
    rw [Session.Request.act, Session.Request.conclude, Writer.finish_eq h hwriter] at hact
    by_cases hmissing : writer.remaining ≠ 0
    · simp only [if_pos hmissing, refuse, Option.some.injEq, Prod.mk.injEq] at hact
      obtain ⟨rfl, rfl, rfl⟩ := hact
      exact ⟨rfl, by simp⟩
    · simp only [if_neg hmissing, Option.some.injEq, Prod.mk.injEq] at hact
      obtain ⟨rfl, rfl, rfl⟩ := hact
      exact ⟨rfl, by simp⟩
  | leave =>
    cases hact
    exact ⟨rfl, by simp⟩
  | _ => cases hact

end Makes

end Ring

/-- and tell nothing -/
theorem Heard.hear_writing (heard : Heard) (writer : Writer) {r next : Ring} {now : Option Stream}
    {request : Session.Request}
    {result : Outcome Session.Answer} (hact : request.act r (some (.writing writer)) = some (next, now, result))
    (reply : Reply Session.Answer) : heard.hear (some (.writing writer)) request reply = heard := by
  cases request with
  | finish => cases reply <;> rfl
  | put _ | leave => rfl
  | _ => cases hact

/-! ## One request, whatever it is -/

/-- where a request leaves the handle under this name, which was in front of the record with some index, and what has
been read then; `log` and `gone` are the records that have been committed by then, and how many of them the ring has no
more -/
inductive Progress (name : String) (log : List Bytes) (gone : Nat) (request : Session.Request) (index : Nat)
    (records : List (Bytes × Nat)) : Nat → List (Bytes × Nat) → Prop
  | stayed : Progress name log gone request index records index records
  | passed {payload : Bytes} {entry : Bytes × Nat} : log[index]? = some payload → Heard.Tells entry payload →
      Progress name log gone request index records (index + 1) (records ++ [entry])
  | rewound : request = .rewind name → Progress name log gone request index records gone []
  /-- the handle has made room for a record -/
  | dropped : request.begins → Progress name log gone request index records (max index gone) records

namespace Session

/-- the session follows the queue, one handle appends, and the handle under this name is in front of the record with
this index when so much has been read -/
structure Tracks (s : Session) (path : Path) (node capacity : Nat) (owner : String) (q : Queue) (log : List Bytes)
    (name : String) (heard : Heard) (handle : Handle) (was : Option Stream) (index : Nat) :
    Prop extends s.Logged path node capacity q log where
  single : s.Single owner
  has : s.Has name handle was
  before : handle.Before was log index heard.piece

/-- and it has come there by one request -/
inductive Advances (s : Session) (path : Path) (node capacity : Nat) (owner : String) (q : Queue) (log : List Bytes)
    (name : String) (access : Access) (request : Request) (index : Nat) (before after : Heard) : Prop
  | reached {handle : Handle} {was : Option Stream} {next : Nat} :
      s.Tracks path node capacity owner q log name after handle was next → handle.access = access →
      (access = .append → q.gone log ≤ next) →
      Progress name log (q.gone log) request index before.records next after.records →
      Advances s path node capacity owner q log name access request index before after

/-- what asks nothing of the queue leaves the ring that the handle sees then -/
theorem InRange.ring_of_quiet {s s' : Session} {path : Path} {node capacity : Nat} {name : String} {handle : Handle}
    {request : Request} {was now : Option Stream} {rest : List Loan} {next : Ring} {result : Outcome Answer}
    (h : s.InRange path node capacity) (howner : s.Owner name handle was rest)
    (hact : request.act (handle.ring s.files) was = some (next, now, result)) (hbegins : request.begins = false)
    (hwas : ∀ stream ∈ was, stream.writer? = none) (hfiles : s'.files = s.files) :
    ({ handle with cursor := next.cursor } : Handle).ring s'.files = next := by
  obtain ⟨hhandle, -⟩ := howner.based h.toBased
  have hsound := h.sound hhandle
  have hcapacity : (handle.ring s.files).capacity = capacity := hhandle.capacity_eq
  have himage := (Request.act_quiet hsound hact hbegins hwas).1
  have hsafe := Ring.safe_of_act hsound (hcapacity.symm ▸ h.stream howner) hact
  obtain ⟨image, _, cursor⟩ := next
  obtain rfl : image = (handle.ring s.files).image := himage
  obtain rfl := hsafe.capacity
  rw [hfiles]
  rfl

namespace Tracks

section Tracks

variable {s s' : Session} {path : Path} {node capacity index : Nat} {owner name : String} {q : Queue} {log : List Bytes}
  {heard : Heard} {handle : Handle} {was : Option Stream} {request : Request} {reply : Reply Answer} {event : Event}

/-- what asks nothing of the queue -/
theorem quiet (h : s.Tracks path node capacity owner q log name heard handle was index)
    (heffect : Effect path s request s' reply)
    (hnext : s'.Logged path node capacity q log) (hsingle : s'.Single owner) (hkeeps : request.keeps name)
    (hgone : q.gone log ≤ index) (hevent : request.event? s = none) :
    s'.Advances path node capacity owner q log name handle.access request index heard
      (s.hear name heard request reply) := by
  obtain ⟨hfiles, -⟩ := heffect.quiet h.toInRange hevent name
  cases heffect.meets hkeeps with
  | passes hfind hloans hhear =>
    rw [hhear]
    exact .reached ⟨hnext, hsingle, h.has.perm hfind hloans, h.before⟩ rfl (fun _ => hgone) .stayed
  | @acts found was now rest next result howner hact _ hsettles hname haccess hhear =>
    obtain ⟨rfl, rfl⟩ := h.has.owner_eq howner
    obtain ⟨hbegins, hwas⟩ := reads_of_event howner hact hname haccess hevent
    have hhandle := h.has.based h.toBased
    have hhas := h.has.settles howner hsettles
    have hhandle' := hhas.based hnext.toBased
    have hstood := h.before.stands h.toLogged hhandle hgone
    obtain ⟨rest', hstands, hmoved⟩ := hstood.act (h.ring_holds hhandle) hbegins hwas hact found.path
    rw [← h.toInRange.ring_of_quiet howner hact hbegins hwas hfiles] at hstands
    rw [hhear]
    cases hmoved with
    | stayed hrecords =>
      have hbefore := Handle.Before.of_stands hnext hhandle' h.before.index_le hstands
      refine .reached ⟨hnext, hsingle, hhas, hbefore⟩ rfl (fun _ => hgone) ?_
      rw [hrecords]
      exact .stayed
    | @passed _ payload more entry hdrop htells hrecords =>
      obtain ⟨hindex, hpayload, rfl⟩ := drop_eq_cons hdrop
      have hbefore := Handle.Before.of_stands hnext hhandle' hindex hstands
      refine .reached ⟨hnext, hsingle, hhas, hbefore⟩ rfl (fun _ => Nat.le_succ_of_le hgone) ?_
      rw [hrecords]
      exact .passed hpayload htells
    | rewound hrecords =>
      cases howner.addressee_eq hact hname
      rw [← Queue.drop_gone h.suffix] at hstands
      have hbefore := Handle.Before.of_stands hnext hhandle' (Nat.sub_le _ _) hstands
      refine .reached ⟨hnext, hsingle, hhas, hbefore⟩ rfl (fun _ => le_rfl) ?_
      rw [hrecords]
      exact .rewound rfl

/-- the handle has made room for a record, or the record is too long -/
theorem began (h : s.Tracks path node capacity owner q log name heard handle was index) {q' : Queue} {more : List Bytes}
    {cursor total : Nat} {now : Option Stream} (hnext : s'.Logged path node capacity q' (log ++ more))
    (hsingle : s'.Single owner) (hhas : s'.Has name { handle with cursor } now) (hgone : q.gone log ≤ index)
    (hcursor : cursor = ((handle.ring s.files).makeRoom total).1.cursor) (hnow : ∀ reader, now ≠ some (.reading reader))
    (hfits : frameLength total < capacity →
      q'.gone (log ++ more) = log.length - (Queue.room capacity (frameLength total) q.records).length)
    (hlong : ¬frameLength total < capacity → q'.gone (log ++ more) = q.gone log) :
    s'.Tracks path node capacity owner q' (log ++ more) name heard { handle with cursor } now
      (max index (q'.gone (log ++ more))) := by
  have hhandle := h.has.based h.toBased
  have hcapacity : (handle.ring s.files).capacity = capacity := hhandle.capacity_eq
  have hplace : max index (q'.gone (log ++ more)) ≤ log.length
      ∧ cursor = offsetOf handle.capacity log (max index (q'.gone (log ++ more))) := by
    have hindex := h.before.index_le
    have hcursor_eq := h.before.cursor_eq
    by_cases hroom : frameLength total < capacity
    · have hmarks : ((handle.ring s.files).image).Marks (handle.ring s.files).capacity log := by
        rw [Reflects.ring_eq hhandle]
        exact h.marks
      have hmoved := (h.ring_holds hhandle).makeRoom_offset hmarks h.suffix hcursor_eq hindex hgone (by rwa [hcapacity])
      rw [hfits hroom, hcursor, hmoved, hcapacity]
      exact ⟨by omega, by rw [hhandle.capacity_eq]⟩
    · have hstayed : ((handle.ring s.files).makeRoom total).1 = handle.ring s.files := by
        rw [Ring.makeRoom_of_not_fits (by rwa [hcapacity])]
      rw [hlong hroom, hcursor, hstayed, Nat.max_eq_left hgone]
      exact ⟨hindex, hcursor_eq⟩
  have hbefore : ({ handle with cursor } : Handle).Before now log (max index (q'.gone (log ++ more))) heard.piece :=
    ⟨hplace.1, hplace.2, fun reader hreading => absurd hreading (hnow reader)⟩
  exact ⟨hnext, hsingle, hhas, hbefore.more more⟩

/-- a piece of a record that is being written, or its end, leaves the handle where it is -/
theorem wrote (h : s.Tracks path node capacity owner q log name heard handle was index) {now : Option Stream}
    {rest : List Loan} {next : Ring} {result : Outcome Answer} {writer : Writer}
    (hnext : s'.Logged path node capacity (q.step capacity event).1 (log ++ q.commit capacity event))
    (hsingle : s'.Single owner)
    (hhas : s'.Has name { handle with cursor := next.cursor } now) (hgone : q.gone log ≤ index)
    (howner : s.Owner name handle was rest) (hact : request.act (handle.ring s.files) was = some (next, now, result))
    (hwriter : was = some (.writing writer)) (hbegins : ¬event.begins) :
    s'.Advances path node capacity owner (q.step capacity event).1
      (log ++ q.commit capacity event) name handle.access request
      index heard (heard.hear was request (result.reply handle.path)) := by
  subst hwriter
  have hhandle := h.has.based h.toBased
  have hcapacity : (handle.ring s.files).capacity = capacity := hhandle.capacity_eq
  have hrange : writer.InRange (handle.ring s.files).capacity := hcapacity.symm ▸ h.toInRange.stream howner _ rfl
  obtain ⟨hcursor, hnow⟩ := Ring.cursor_of_writing (h.toInRange.sound hhandle).toOpens hrange hact
  have hbefore : ({ handle with cursor := next.cursor } : Handle).Before now log index heard.piece :=
    ⟨h.before.index_le, hcursor.trans h.before.cursor_eq, fun reader hreading => absurd hreading (hnow reader)⟩
  rw [heard.hear_writing writer hact]
  refine .reached ⟨hnext, hsingle, hhas, hbefore.more _⟩ rfl (fun _ => ?_) .stayed
  rw [(Queue.gone_step h.suffix event).2 hbegins]
  exact hgone

/-- what asks something of the queue -/
theorem asked (h : s.Tracks path node capacity owner q log name heard handle was index)
    (heffect : Effect path s request s' reply)
    (hnext : s'.Logged path node capacity (q.step capacity event).1 (log ++ q.commit capacity event))
    (hsingle : s'.Single owner)
    (hkeeps : request.keeps name) (hgone : q.gone log ≤ index) (hevent : request.event? s = some event) :
    s'.Advances path node capacity owner (q.step capacity event).1
      (log ++ q.commit capacity event) name handle.access request
      index heard (s.hear name heard request reply) := by
  have hasks := asks_of_event hevent
  obtain ⟨asked, haddressee⟩ := h.single.addressee_eq hasks
  cases heffect.meets hkeeps with
  | passes hfind hloans hhear hother =>
    -- the request is for the handle that appends, and so this one only reads
    have hne : name ≠ owner := by
      rcases hother with hnone | ⟨other, _, hne, hfound⟩
      · cases hevent.symm.trans hnone
      · cases haddressee.symm.trans hfound
        exact hne.symm
    rw [hhear]
    exact .reached ⟨hnext, hsingle, h.has.perm hfind hloans, h.before.more _⟩ rfl
      (fun haccess => absurd (h.single.name_eq_of_has h.has haccess) hne) .stayed
  | @acts found was now rest next result howner hact _ hsettles hname haccess hhear =>
    obtain ⟨rfl, rfl⟩ := h.has.owner_eq howner
    have hhas := h.has.settles howner hsettles
    have hhandle := h.has.based h.toBased
    have hsound := h.toInRange.sound hhandle
    have hown := howner.addressee_eq hact hname
    rw [hhear]
    cases hasks with
    | @append _ payload =>
      cases hown
      obtain ⟨hcursor, hnow⟩ := Ring.cursor_of_append hsound hact
      refine .reached (h.began hnext hsingle hhas hgone hcursor hnow (Queue.gone_append log) ?_) rfl
        (fun _ => Nat.le_max_right _ _) (.dropped rfl)
      intro hlong
      simp only [Queue.step, Queue.commit, if_neg hlong, List.append_nil]
    | @start _ total =>
      cases hown
      obtain ⟨hcursor, hnow⟩ := Ring.cursor_of_startWrite hsound hact
      refine .reached (h.began hnext hsingle hhas hgone hcursor hnow (Queue.gone_start log) ?_) rfl
        (fun _ => Nat.le_max_right _ _) (.dropped rfl)
      intro hlong
      simp only [Queue.step, Queue.commit, if_neg hlong, List.append_nil]
    | put hloans =>
      cases (addressee_of_lent hloans rfl).symm.trans hown
      exact h.wrote hnext hsingle hhas hgone howner hact rfl Bool.false_ne_true
    | finish hloans =>
      cases (addressee_of_lent hloans rfl).symm.trans hown
      exact h.wrote hnext hsingle hhas hgone howner hact rfl Bool.false_ne_true
    | leave hloans =>
      cases (addressee_of_lent hloans rfl).symm.trans hown
      exact h.wrote hnext hsingle hhas hgone howner hact rfl Bool.false_ne_true

/-- **One request.** The handle stays, passes the record in front of it, goes back to the oldest one, or makes room. -/
theorem serve (h : s.Tracks path node capacity owner q log name heard handle was index) (hguest : request.guest owner)
    (hkeeps : request.keeps name) (hgone : q.gone log ≤ index) :
    (s.serve path request).1.Advances path node capacity owner (q.run capacity (request.event? s).toList).1
      (log ++ q.log capacity (request.event? s).toList) name handle.access request index heard
      (s.hear name heard request (s.answer path request)) := by
  have hsingle := h.single.effect h.toInRange (s.effect path request) hguest
  cases hevent : request.event? s with
  | none =>
    rw [Option.toList_none, Queue.log, List.append_nil]
    exact h.quiet (s.effect path request) (h.serve_quiet hevent) hsingle hkeeps hgone hevent
  | some event =>
    have hlog : q.log capacity (some event).toList = q.commit capacity event := List.append_nil _
    rw [hlog]
    exact h.asked (s.effect path request) (h.serve_event (h.single.admits request) hevent) hsingle hkeeps hgone hevent

end Tracks

end Tracks

end Session

end CircularLog
