/-
Whatever the records say. Two sessions begin on the same empty ring and are asked the same, but that the bytes of the
records are others. As long as no handle that only reads is lapped, each cursor is in front of a frame that is kept, or
behind all of them, and so no frame is ever looked for among the bytes of a record: offsets, cursors, figures, lengths
and refusals are the same.

- `Queue.Alike`: queues that hold records of the same lengths.
- `Session.Abreast`: what holds of both sessions together; `Session.Abreast.serve`: one request to each.
- `contents_are_never_framing`: any number of requests.
-/
import CircularLog.Proofs.Delivery
import CircularLog.Proofs.Lapping
import CircularLog.Proofs.Likeness

namespace CircularLog

/-! ## Queues that hold records of the same lengths -/

/-- what is asked is the same, but for the bytes -/
inductive Event.Like (ρ : UInt8 → UInt8 → Prop) : Event → Event → Prop
  | append {payload other : Bytes} : List.Forall₂ ρ payload other → Like ρ (.append payload) (.append other)
  | start (total : Nat) : Like ρ (.start total) (.start total)
  | put {chunk other : Bytes} : List.Forall₂ ρ chunk other → Like ρ (.put chunk) (.put other)
  | finish : Like ρ .finish .finish
  | leave : Like ρ .leave .leave

/-- the records are the same, but for the bytes, and so is what has been written of the one that is being written -/
structure Queue.Alike (ρ : UInt8 → UInt8 → Prop) (q q' : Queue) : Prop where
  records : List.Forall₂ (List.Forall₂ ρ) q.records q'.records
  pending : Option.Rel (fun begun begun' => begun'.1 = begun.1 ∧ List.Forall₂ ρ begun.2 begun'.2) q.pending q'.pending

namespace Queue

section Alike

variable {ρ : UInt8 → UInt8 → Prop} {q q' : Queue} {records records' log log' : List Bytes} {event event' : Event}

/-- as many records go -/
theorem room_alike (h : List.Forall₂ (List.Forall₂ ρ) records records') (capacity length : Nat) :
    List.Forall₂ (List.Forall₂ ρ) (room capacity length records) (room capacity length records') := by
  induction h with
  | nil => exact .nil
  | @cons payload payload' records records' hpayload hrecords ih =>
    have hweight := weight_alike (.cons hpayload hrecords)
    by_cases hfits : weight (payload :: records) + length < capacity
    · rw [room_of_lt hfits, room_of_lt (hweight ▸ hfits)]
      exact .cons hpayload hrecords
    · rw [room_cons_of_not_lt hfits, room_cons_of_not_lt (hweight ▸ hfits)]
      exact ih

/-- no record is being written, or one of the same length, of which as much is there -/
theorem Alike.pending_cases (h : q.Alike ρ q') :
    (q.pending = none ∧ q'.pending = none) ∨ ∃ total written written', q.pending = some (total, written)
      ∧ q'.pending = some (total, written') ∧ List.Forall₂ ρ written written' := by
  have hpending := h.pending
  generalize q.pending = begun at hpending ⊢
  generalize q'.pending = begun' at hpending ⊢
  cases hpending with
  | none => exact .inl ⟨rfl, rfl⟩
  | @some begun begun' hbegun =>
    obtain ⟨total, written⟩ := begun
    obtain ⟨_, written'⟩ := begun'
    obtain ⟨rfl, hwritten⟩ := hbegun
    exact .inr ⟨_, written, written', rfl, rfl, hwritten⟩

theorem Alike.step (h : q.Alike ρ q') (hlike : event.Like ρ event') (capacity : Nat) :
    (q.step capacity event).1.Alike ρ (q'.step capacity event').1 := by
  cases hlike with
  | append hpayload =>
    simp only [Queue.step, ← hpayload.length_eq]
    split
    · exact ⟨List.rel_append (room_alike h.records _ _) (.cons hpayload .nil), h.pending⟩
    · exact h
  | start total =>
    simp only [Queue.step]
    split
    · exact ⟨room_alike h.records _ _, .some ⟨rfl, .nil⟩⟩
    · exact h
  | put hchunk =>
    obtain ⟨hnone, hnone'⟩ | ⟨total, written, written', hsome, hsome', hwritten⟩ := h.pending_cases
    · simp only [Queue.step, hnone, hnone']
      exact h
    · simp only [Queue.step, hsome, hsome', ← hchunk.length_eq, ← hwritten.length_eq]
      split
      · exact h
      · exact ⟨h.records, .some ⟨rfl, List.rel_append hwritten hchunk⟩⟩
  | finish =>
    obtain ⟨hnone, hnone'⟩ | ⟨total, written, written', hsome, hsome', hwritten⟩ := h.pending_cases
    · simp only [Queue.step, hnone, hnone']
      exact h
    · simp only [Queue.step, hsome, hsome', ← hwritten.length_eq]
      split
      · exact ⟨List.rel_append h.records (.cons hwritten .nil), .none⟩
      · exact ⟨h.records, .none⟩
  | leave => exact ⟨h.records, .none⟩

theorem Alike.commit (h : q.Alike ρ q') (hlike : event.Like ρ event') (capacity : Nat) :
    List.Forall₂ (List.Forall₂ ρ) (q.commit capacity event) (q'.commit capacity event') := by
  cases hlike with
  | append hpayload =>
    simp only [Queue.commit, ← hpayload.length_eq]
    split
    · exact .cons hpayload .nil
    · exact .nil
  | finish =>
    obtain ⟨hnone, hnone'⟩ | ⟨total, written, written', hsome, hsome', hwritten⟩ := h.pending_cases
    · simp only [Queue.commit, hnone, hnone']
      exact .nil
    · simp only [Queue.commit, hsome, hsome', ← hwritten.length_eq]
      split
      · exact .cons hwritten .nil
      · exact .nil
  | _ => exact .nil

/-- as many records of the log are gone -/
theorem Alike.gone_eq (h : q.Alike ρ q') (hlog : List.Forall₂ (List.Forall₂ ρ) log log') :
    q'.gone log' = q.gone log := by
  rw [gone, gone, hlog.length_eq, h.records.length_eq]

end Alike

end Queue

theorem offsetOf_alike {ρ : UInt8 → UInt8 → Prop} {log log' : List Bytes} (h : List.Forall₂ (List.Forall₂ ρ) log log')
    (capacity index : Nat) : offsetOf capacity log' index = offsetOf capacity log index := by
  rw [offsetOf, offsetOf, weight_alike (List.forall₂_take index h)]

/-! ## Two sessions -/

namespace Session

/-- both sessions follow queues that hold records of the same lengths, and are the same but for bytes of their file -/
structure Abreast (ρ : UInt8 → UInt8 → Prop) (s t : Session) (path : Path) (node capacity : Nat) (owner : String)
    (q q' : Queue) (log log' : List Bytes) : Prop where
  left : s.Logged path node capacity q log
  right : t.Logged path node capacity q' log'
  single : s.Single owner
  ahead : s.Ahead q log
  beside : (likeness ρ capacity).Beside node s t
  queues : q.Alike ρ q'
  logs : List.Forall₂ (List.Forall₂ ρ) log log'

namespace Abreast

section Abreast

variable {ρ : UInt8 → UInt8 → Prop} {s t : Session} {path : Path} {node capacity : Nat} {owner name : String}
  {q q' : Queue} {log log' : List Bytes} {handle : Handle} {was : Option Stream} {request request' : Request}
  {requests requests' : List Request}

/-- the second session is the first one on a file with other bytes -/
theorem eq_files (h : Abreast ρ s t path node capacity owner q q' log log') :
    t = { s with files := s.files.setImage node (t.files.image node) }
      ∧ (s.files.image node).Alike ρ (t.files.image node) := by
  obtain ⟨image, halike, rfl⟩ := h.beside
  rw [recast_likeness]
  simp only [FileSystem.image_setImage h.left.node_lt]
  exact ⟨trivial, halike⟩

theorem handles_eq (h : Abreast ρ s t path node capacity owner q q' log log') :
    t.handles = s.handles := by rw [h.eq_files.1]

theorem loans_eq (h : Abreast ρ s t path node capacity owner q q' log log') : t.loans = s.loans := by rw [h.eq_files.1]

/-- a handle in front of what is kept sees the same frame in both files -/
theorem matches_of_ahead (h : Abreast ρ s t path node capacity owner q q' log log')
    (hhandle : handle.At path node capacity)
    (hahead : handle.Ahead was q log) : (handle.ring s.files).Matches ρ (handle.ring t.files) := by
  obtain ⟨index, piece, hbefore, hgone⟩ := hahead
  have hstands := hbefore.stands h.left hhandle hgone
  have hholds' := h.right.ring_holds hhandle
  have hlies' := h.right.marks.lies h.right.opens (h.right.holds hhandle.cursor_lt).lies h.right.suffix
    ((h.queues.gone_eq h.logs).trans_le hgone)
  have hcursor := hbefore.cursor_eq
  rw [hhandle.capacity_eq, ← offsetOf_alike h.logs] at hcursor
  have halike : (handle.ring s.files).Alike ρ (handle.ring t.files) := by
    rw [Reflects.ring_eq hhandle, Reflects.ring_eq hhandle]
    exact ⟨rfl, rfl, h.eq_files.2⟩
  refine (h.left.ring_holds hhandle).matches_alike hholds' h.queues.records halike hstands.lies ?_
    (List.forall₂_drop index h.logs)
  rw [Reflects.ring_eq hhandle]
  simp only [hcursor]
  exact hlies'

/-- the same is asked of both queues -/
theorem events_like (h : Abreast ρ s t path node capacity owner q q' log log') (hρ : ∀ b, ρ b b)
    (hlike : request.Like ρ request') :
    Option.Rel (Event.Like ρ) (request.event? s) (request'.event? t) := by
  have happender : ∀ name, t.appender name = s.appender name := by
    intro name
    rw [h.eq_files.1]
    rfl
  have hwriting : t.writing = s.writing := by rw [writing, writing, h.loans_eq]
  have happend : ∀ name {payload other : Bytes}, List.Forall₂ ρ payload other →
      Option.Rel (Event.Like ρ) (Request.event? s (.append name payload)) (Request.event? t (.append name other)) := by
    intro name payload other hpayload
    rw [Request.event?, Request.event?, happender]
    cases (s.appender name).toOption with
    | none => exact .none
    | some handle => exact .some (.append hpayload)
  have hput : ∀ {chunk other : Bytes}, List.Forall₂ ρ chunk other →
      Option.Rel (Event.Like ρ) (Request.event? s (.put chunk)) (Request.event? t (.put other)) := by
    intro chunk other hchunk
    rw [Request.event?, Request.event?, hwriting]
    split
    · exact .some (.put hchunk)
    · exact .none
  cases hlike with
  | append hpayload => exact happend _ hpayload
  | put hchunk => exact hput hchunk
  | same =>
    cases request with
    | append name payload => exact happend name (forall₂_self hρ _)
    | put chunk => exact hput (forall₂_self hρ _)
    | startWrite name total =>
      rw [Request.event?, Request.event?, happender]
      cases (s.appender name).toOption with
      | none => exact .none
      | some handle => exact .some (.start total)
    | finish =>
      rw [Request.event?, Request.event?, hwriting]
      split
      · exact .some .finish
      · exact .none
    | leave =>
      rw [Request.event?, Request.event?, hwriting]
      split
      · exact .some .leave
      · exact .none
    | _ => exact .none

/-- no two records are being written at once in the second session -/
theorem admits (h : Abreast ρ s t path node capacity owner q q' log log') (hρ : ∀ b, ρ b b)
    (hlike : request.Like ρ request') :
    t.Admits request' := by
  have hadmits := h.single.admits request
  have hwriters : t.writers = s.writers := by rw [writers, writers, h.loans_eq]
  have hevents := h.events_like hρ hlike
  rw [Admits] at hadmits ⊢
  rw [hwriters]
  intro hbegins
  apply hadmits
  generalize request.event? s = event at hevents ⊢
  generalize request'.event? t = event' at hevents hbegins
  cases hevents with
  | none => exact hbegins
  | some hevent => cases hevent <;> exact hbegins

/-- the ring of a handle in the second session is the one that the handle sees there -/
theorem acts (h : Abreast ρ s t path node capacity owner q q' log log') (hρ : ∀ b, ρ b b)
    (hlike : request.Like ρ request')
    {image : Image} (ht : t = (likeness ρ capacity).recast node image s) {rest : List Loan}
    (howner : s.Owner name handle was rest) :
    (likeness ρ capacity).Acts path (request.act (handle.ring s.files) was)
      (request'.act ((likeness ρ capacity).ring image (handle.ring s.files))
        (was.map (likeness ρ capacity).piece)) := by
  obtain ⟨hhandle, -⟩ := howner.based h.left.toBased
  have hcapacity : (handle.ring s.files).capacity = capacity := hhandle.capacity_eq
  have hmatches := h.matches_of_ahead hhandle (h.ahead.of_owner howner)
  have hring : handle.ring t.files = (likeness ρ capacity).ring image (handle.ring s.files) := by
    rw [ht]
    exact (likeness ρ capacity).ring_recast node image s h.left.node_lt hhandle.node_eq
  have hwas : was.map (likeness ρ capacity).piece = was := Option.map_id_apply
  rw [← hring, hwas]
  exact hmatches.acts hρ (h.left.toInRange.sound hhandle) (hcapacity.symm ▸ h.left.toInRange.stream howner) hlike path

/-- **One request to each.** -/
theorem serve (h : Abreast ρ s t path node capacity owner q q' log log') (hρ : ∀ b, ρ b b)
    (hlike : request.Like ρ request') (hguest : request.guest owner)
    (hlapped : ∀ handle ∈ s.readers, ¬handle.Lapped s.files (s.serve path request).1.files) :
    Abreast ρ (s.serve path request).1 (t.serve path request').1 path node capacity owner
      (q.run capacity (request.event? s).toList).1
        (q'.run capacity (request'.event? t).toList).1 (log ++ q.log capacity (request.event? s).toList)
        (log' ++ q'.log capacity (request'.event? t).toList)
      ∧ Concurs (Answer.Alike ρ) (s.answer path request) (t.answer path request') := by
  have hsingle := h.single.effect h.left.toInRange (s.effect path request) hguest
  have hadmits := h.admits hρ hlike
  obtain ⟨hbeside, hheard⟩ :=
    Pairing.serve h.left.toInRange h.beside hlike fun image _ ht name handle was rest howner =>
    h.acts hρ hlike ht howner
  refine ⟨?_, hheard⟩
  -- the queues are asked the same, or neither is
  have hevents := h.events_like hρ hlike
  cases hevent : request.event? s with
  | none =>
    cases hevent' : request'.event? t with
    | some event' =>
      rw [hevent, hevent'] at hevents
      cases hevents
    | none =>
      rw [Option.toList_none, Queue.log, Queue.log, List.append_nil, List.append_nil]
      have hleft := h.left.serve_quiet hevent
      exact ⟨hleft, h.right.serve_quiet hevent', hsingle, h.ahead.quiet h.left (s.effect path request) hleft hevent,
        hbeside, h.queues, h.logs⟩
  | some event =>
    cases hevent' : request'.event? t with
    | none =>
      rw [hevent, hevent'] at hevents
      cases hevents
    | some event' =>
      rw [hevent, hevent'] at hevents
      cases hevents with
      | some hboth =>
        have hlog : q.log capacity (some event).toList = q.commit capacity event := List.append_nil _
        have hlog' : q'.log capacity (some event').toList = q'.commit capacity event' := List.append_nil _
        rw [hlog, hlog']
        have hleft := h.left.serve_event (h.single.admits request) hevent
        exact ⟨hleft, h.right.serve_event hadmits hevent', hsingle,
          h.ahead.asked h.left h.single (s.effect path request) hguest hevent hleft hlapped, hbeside,
          h.queues.step hboth capacity, List.rel_append h.logs (h.queues.commit hboth capacity)⟩

/-- **Any number of requests.** -/
theorem run (h : Abreast ρ s t path node capacity owner q q' log log') (hρ : ∀ b, ρ b b)
    (hlike : List.Forall₂ (Request.Like ρ) requests requests') (hguests : ∀ request ∈ requests, request.guest owner)
    (hlapped : s.NeverLapped path requests) :
    Abreast ρ (s.run path requests).1 (t.run path requests').1 path node capacity owner
      (q.run capacity (s.events path requests)).1
        (q'.run capacity (t.events path requests')).1 (log ++ q.log capacity (s.events path requests))
        (log' ++ q'.log capacity (t.events path requests'))
      ∧ List.Forall₂ (Concurs (Answer.Alike ρ)) (s.answers path requests) (t.answers path requests') := by
  induction hlike generalizing s t q q' log log' with
  | nil =>
    have hnone : s.events path [] = [] := rfl
    have hnone' : t.events path [] = [] := rfl
    rw [hnone, hnone', Queue.log, Queue.log, List.append_nil, List.append_nil]
    exact ⟨h, .nil⟩
  | @cons request request' requests requests' hrequest hrequests ih =>
    obtain ⟨hguest, hguests⟩ := List.forall_mem_cons.1 hguests
    obtain ⟨hnot, hlapped⟩ := hlapped
    obtain ⟨hserved, hanswer⟩ := h.serve hρ hrequest hguest hnot
    obtain ⟨hrun, hanswers⟩ := ih hserved hguests hlapped
    rw [run_events_cons, run_events_cons, log_events_cons, log_events_cons]
    exact ⟨hrun, .cons hanswer hanswers⟩

end Abreast

end Abreast

/-! ## Where both begin -/

/-- one handle is on a ring that holds no record: it has made the ring, or has opened it to append -/
inductive Starts (path : Path) (capacity : Nat) (owner : String) : Session → Prop
  | made {fs : FileSystem} {s : Session} : Session.create { files := fs } owner path capacity = (s, .ok ()) →
      Starts path capacity owner s
  | found {fs : FileSystem} {handle : Handle} : Handle.openRing fs path .append = .ok handle →
      handle.capacity = capacity →
      (fs.image handle.node).size ≤ Image.maxSize → (fs.image handle.node).start = (fs.image handle.node).stop →
      Starts path capacity owner (({ files := fs } : Session).bind owner handle)

/-- records without bytes take one byte each -/
theorem weight_replicate_nil (count : Nat) : weight (List.replicate count []) = count := by
  induction count with
  | zero => rfl
  | succ count ih =>
    rw [List.replicate_succ, weight_cons, ih, Nat.add_comm]
    rfl

theorem eq_of_find?_bind {files : FileSystem} {owner name : String} {handle found : Handle}
    (hfind : (({ files } : Session).bind owner handle).find? name = some found) : found = handle := by
  rcases mem_bind (find?_mem hfind) with heq | hnone
  · exact (Prod.mk.inj heq).2
  · cases hnone

theorem Starts.logged {s : Session} {path : Path} {capacity : Nat} {owner : String} (h : s.Starts path capacity owner) :
    ∃ node log, s.Logged path node capacity {} log ∧ s.Single owner ∧ s.Ahead {} log := by
  cases h with
  | made hcreate =>
    obtain ⟨node, handle, hmade, -⟩ := tracks_create hcreate
    obtain ⟨files, maker, -, rfl⟩ := create_ok hcreate
    obtain rfl := eq_of_find?_bind hmade.has.find
    refine ⟨node, [], hmade.toLogged, hmade.single, fun name found hfind => ?_, List.forall_mem_nil _⟩
    rw [eq_of_find?_bind hfind]
    exact ⟨0, [], hmade.before, le_rfl⟩
  | @found fs handle hopen hcapacity hfile hempty =>
    subst hcapacity
    obtain ⟨-, hopens, hhandle⟩ := Handle.of_openRing hopen hfile
    have hcursor : handle.cursor = (fs.image handle.node).start := by rw [hhandle]
    have hpath : handle.path = path := by rw [hhandle]
    have hat : handle.At path handle.node handle.capacity := ⟨hpath, rfl, rfl, hcursor.trans_lt hopens.start_lt⟩
    -- as if records without bytes had been there up to the offsets
    have hmarks : (fs.image handle.node).Marks handle.capacity (List.replicate (fs.image handle.node).stop []) := by
      rw [Image.Marks, weight_replicate_nil, Nat.mod_eq_of_lt hopens.stop_lt]
    have hlogged : (({ files := fs } : Session).bind owner handle).Logged path handle.node handle.capacity {}
        (List.replicate (fs.image handle.node).stop []) :=
      { toReflects := (reflects_open hopen hfile hempty).bind hat, opens := hopens, streams := List.forall_mem_nil _
        suffix := List.nil_suffix, marks := hmarks }
    refine ⟨handle.node, _, hlogged, .bind fs owner handle, fun name found hfind => ?_, List.forall_mem_nil _⟩
    rw [eq_of_find?_bind hfind]
    exact hlogged.ahead_of_start hat hcursor

theorem Abreast.refl {ρ : UInt8 → UInt8 → Prop} (hρ : ∀ b, ρ b b) {s : Session} {path : Path} {node capacity : Nat}
    {owner : String} {q : Queue} {log : List Bytes} (hlogged : s.Logged path node capacity q log)
    (hsingle : s.Single owner) (hahead : s.Ahead q log) : Abreast ρ s s path node capacity owner q q log log where
  left := hlogged
  right := hlogged
  single := hsingle
  ahead := hahead
  beside := by
    refine ⟨s.files.image node, .refl hρ _, ?_⟩
    rw [recast_likeness, FileSystem.setImage_image]
  queues := by
    refine ⟨List.forall₂_same.2 fun _ _ => forall₂_self hρ _, ?_⟩
    cases q.pending with
    | none => exact .none
    | some begun => exact .some ⟨rfl, forall₂_self hρ _⟩
  logs := List.forall₂_same.2 fun _ _ => forall₂_self hρ _

/-! ## What is the same -/

/-- everything is the same, but for bytes of the data of this file -/
structure Agrees (ρ : UInt8 → UInt8 → Prop) (node : Nat) (s t : Session) : Prop where
  /-- with their cursors -/
  handles : t.handles = s.handles
  /-- the records in pieces, and the cursors of the handles that are lent to them -/
  loans : t.loans = s.loans
  files : t.files = s.files.setImage node (t.files.image node)
  start : (t.files.image node).start = (s.files.image node).start
  stop : (t.files.image node).stop = (s.files.image node).stop
  flags : (t.files.image node).flags = (s.files.image node).flags
  /-- the control block as a whole -/
  head : (t.files.image node).head = (s.files.image node).head
  /-- the data -/
  circle : List.Forall₂ ρ (s.files.image node).circle (t.files.image node).circle
  usage : ∀ name, t.query name Ring.usage = s.query name Ring.usage
  nextSize : ∀ name, t.query name Ring.nextSize = s.query name Ring.nextSize

section Agrees

variable {ρ : UInt8 → UInt8 → Prop} {s t : Session} {path : Path} {node capacity : Nat} {owner : String} {q q' : Queue}
  {log log' : List Bytes}

/-- what is found without looking at the bytes of a record -/
theorem Abreast.query_eq {α : Type} (h : Abreast ρ s t path node capacity owner q q' log log') {ask : Ring → Outcome α}
    (hask : ∀ r r' : Ring, r.Matches ρ r' → ask r' = ask r) (name : String) : t.query name ask = s.query name ask := by
  have hfind : t.find? name = s.find? name := by rw [find?, find?, h.handles_eq]
  rw [query, query, hfind]
  cases hfound : s.find? name with
  | none => rfl
  | some handle =>
    have hmatches := h.matches_of_ahead (h.left.toReflects.find? hfound) (h.ahead.free name handle hfound)
    simp only [hask _ _ hmatches]

theorem Abreast.agrees (h : Abreast ρ s t path node capacity owner q q' log log') : Agrees ρ node s t where
  handles := h.handles_eq
  loans := h.loans_eq
  files := congrArg Session.files h.eq_files.1
  start := h.eq_files.2.start_eq
  stop := h.eq_files.2.stop_eq
  flags := h.eq_files.2.flags_eq
  head := h.eq_files.2.head
  circle := h.eq_files.2.circle
  usage := h.query_eq fun _ _ hmatches => hmatches.usage_eq
  nextSize := h.query_eq fun _ _ hmatches => hmatches.nextSize

end Agrees

end Session

open Session

/-- **Records are never taken for framing.** One handle appends to a ring that holds no record at first, and any number
of others read; the same is asked of them twice, but that the bytes of the records and of their pieces are others the
second time, related one by one by any relation that each byte has to itself. If in the first run the start offset never
goes past the cursor of a handle that reads, each request is answered the same in both, but for the bytes that are read;
and after each of them all cursors, the control block, the figures and the length of what is next are the same, as many
records are kept, of the same lengths, and only bytes of the data differ, all of them as the relation says. -/
theorem contents_are_never_framing {s : Session} {path : Path} {capacity : Nat} {owner : String}
    (hstarts : s.Starts path capacity owner) {ρ : UInt8 → UInt8 → Prop} (hρ : ∀ b, ρ b b)
    {requests requests' : List Session.Request} (hlike : List.Forall₂ (Session.Request.Like ρ) requests requests')
    (hguests : ∀ request ∈ requests, request.guest owner) (hlapped : s.NeverLapped path requests) :
    List.Forall₂ (Concurs (Session.Answer.Alike ρ)) (s.answers path requests) (s.answers path requests')
      ∧ ∃ place node, s.files.lookup path = .ok (place, .file node) ∧ ∀ count,
        Agrees ρ node (s.run path (requests.take count)).1 (s.run path (requests'.take count)).1
        ∧ List.Forall₂ (List.Forall₂ ρ) (s.kept path capacity (requests.take count))
          (s.kept path capacity (requests'.take count)) := by
  obtain ⟨node, log, hlogged, hsingle, hahead⟩ := hstarts.logged
  obtain ⟨place, hlookup⟩ := hlogged.lookup
  have habreast := Abreast.refl hρ hlogged hsingle hahead
  refine ⟨(habreast.run hρ hlike hguests hlapped).2, place, node, hlookup, fun count => ?_⟩
  have hfront : ∀ request ∈ requests.take count, request.guest owner := fun request hrequest =>
    hguests request (List.mem_of_mem_take hrequest)
  obtain ⟨hrun, -⟩ := habreast.run hρ (List.forall₂_take count hlike) hfront (hlapped.take count)
  exact ⟨hrun.agrees, hrun.queues.records⟩

/-- the second byte is the first one, or it says that the length of a record goes on -/
def GoesOn (b c : UInt8) : Prop := b = c ∨ 0x80 ≤ c

instance (b c : UInt8) : Decidable (GoesOn b c) := inferInstanceAs (Decidable (_ ∨ _))

/-- a record is read in pieces, gives way to one that is abandoned, and two others are read; one of them goes on over
the end of the data, and both give way to a last one -/
def contentRequests (first piece second third fourth : Bytes) : List Session.Request :=
  [.append "a" first, .openRing "r" .read, .startRead "r", .take 2, .finish, .startWrite "a" 4, .put piece, .leave,
    .append "a" second, .append "a" third, .record "r", .record "r", .append "a" fourth, .record "r"]

def plainRequests : List Session.Request := contentRequests [1, 2, 3] [4, 5] [6] [7, 8, 9, 10] [11, 12, 13]

/-- none of these bytes would end the length of a record -/
def endlessRequests : List Session.Request :=
  contentRequests [0xFF, 0xFF, 0xFF] [0x80, 0x80] [0xFF] [0x81, 0xFF, 0xFF, 0xFF] [0x80, 0x80, 0x80]

theorem contents_are_never_framing_endless :
    smallSession.Starts FileSystem.singleName 9 "a" ∧ (∀ b, GoesOn b b)
      ∧ List.Forall₂ (Session.Request.Like GoesOn) plainRequests endlessRequests
      ∧ (∀ request ∈ plainRequests, request.guest "a")
      ∧ smallSession.NeverLapped FileSystem.singleName plainRequests
      ∧ smallSession.answers FileSystem.singleName endlessRequests
        = [.ok .done, .ok .done, .ok (.started true), .ok (.piece [0xFF, 0xFF]), .ok .done, .ok .done, .ok .done,
          .ok .done, .ok .done, .ok .done, .ok (.record (some [0xFF])),
          .ok (.record (some [0x81, 0xFF, 0xFF, 0xFF])), .ok .done, .ok (.record (some [0x80, 0x80, 0x80]))]
      ∧ List.Forall₂ (Concurs (Session.Answer.Alike GoesOn)) (smallSession.answers FileSystem.singleName plainRequests)
        (smallSession.answers FileSystem.singleName endlessRequests)
      ∧ ∃ place node, smallSession.files.lookup FileSystem.singleName = .ok (place, .file node) ∧ ∀ count,
        Agrees GoesOn node (smallSession.run FileSystem.singleName (plainRequests.take count)).1
          (smallSession.run FileSystem.singleName (endlessRequests.take count)).1
        ∧ List.Forall₂ (List.Forall₂ GoesOn) (smallSession.kept FileSystem.singleName 9 (plainRequests.take count))
          (smallSession.kept FileSystem.singleName 9 (endlessRequests.take count)) := by
  have hmade : Session.create {} "a" FileSystem.singleName 9 = (smallSession, .ok ()) := by decide +kernel
  have hsame : ∀ b, GoesOn b b := fun _ => Or.inl rfl
  have hlike : List.Forall₂ (Session.Request.Like GoesOn) plainRequests endlessRequests :=
    .cons (.append (by decide)) (.cons (.same _) (.cons (.same _) (.cons (.same _) (.cons (.same _) (.cons (.same _)
      (.cons (.put (by decide))
        (.cons (.same _) (.cons (.append (by decide)) (.cons (.append (by decide)) (.cons (.same _)
        (.cons (.same _) (.cons (.append (by decide)) (.cons (.same _) .nil)))))))))))))
  have hguests : ∀ request ∈ plainRequests, request.guest "a" := by decide
  have hlapped : smallSession.NeverLapped FileSystem.singleName plainRequests := by decide +kernel
  exact ⟨.made hmade, hsame, hlike, hguests, hlapped, by decide +kernel,
    contents_are_never_framing (.made hmade) hsame hlike hguests hlapped⟩

/-- the second record takes the place of the first one, which the reader has not passed; its last byte is where the
first began -/
def lappingRequests (last : UInt8) : List Session.Request :=
  [.openRing "r" .read, .append "a" [1, 2, 3], .append "a" [4, 5, 6, 7, last]]

/-- a reader that is lapped does take that byte for the length of a record -/
example : ¬smallSession.NeverLapped FileSystem.singleName (lappingRequests 0)
    ∧ (smallSession.run FileSystem.singleName (lappingRequests 0)).1.query "r" Ring.nextSize = .ok (some 0)
    ∧ (smallSession.run FileSystem.singleName (lappingRequests 1)).1.query "r" Ring.nextSize
      = .error (.refused ((Refusal.frameTooLong 0 1).report (some FileSystem.singleName))) := by
  decide +kernel

end CircularLog
