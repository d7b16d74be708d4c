/-
What is delivered to whoever reads while one handle appends. As long as nothing is evicted that a reader has not passed,
it gets every committed record from where it began, in the order of the log, each once. The handle that appends passes
over what it evicts itself, and so is always in front of a record that is kept, or behind all of them.

- `Session.Reads`: what a handle in front of some records is answered.
- `Progress.told`, `Retells.next`: what one request does to what has been read.
- `unlapped_reader_gets_every_record`: any handle, as long as it is not lapped.
- `appender_stands_before_kept_records`: the handle that appends, always.
-/
import CircularLog.Proofs.Committed

namespace CircularLog

namespace Session

/-! ## What is answered -/

/-- what reading into a buffer comes to, at this cursor in front of these records -/
def filling (path : Path) (cursor : Nat) (buffer : Bytes) : List Bytes → Reply Answer
  | [] => .ok (.filled buffer none)
  | payload :: _ =>
    if buffer.length < payload.length then
      .error (.refused ((Refusal.bufferTooSmall cursor payload.length).report (some path)))
    else .ok (.filled (fill buffer payload) (some payload.length))

/-- whoever reads under this name gets the first of these records, whole or in pieces, and nothing if there is none -/
structure Reads (s : Session) (path : Path) (name : String) (rest : List Bytes) : Prop where
  record : ∀ handle, s.find? name = some handle → s.answer path (.record name) = .ok (.record rest.head?)
  read : ∀ handle buffer, s.find? name = some handle →
    s.answer path (.read name buffer) = filling path handle.cursor buffer rest
  startRead : ∀ handle, s.find? name = some handle → s.answer path (.startRead name) = .ok (.started !rest.isEmpty)
  pieces : ∀ handle reader others, s.loans = { name, handle, stream := .reading reader } :: others →
    ∃ payload more, rest = payload :: more ∧ reader.total = payload.length ∧ reader.consumed ≤ payload.length
      ∧ (∀ length, s.answer path (.take length) = .ok (.piece ((payload.drop reader.consumed).take length)))
      ∧ (∀ length, s.answer path (.takeExact length)
        = .ok (.exact (if reader.remaining < length then none else some ((payload.drop reader.consumed).take length))))
      ∧ s.answer path .takeAll = .ok (.piece (payload.drop reader.consumed))
      ∧ s.answer path .finish = .ok .done

section Reads

variable {s : Session} {path : Path} {node capacity index : Nat} {owner name : String} {q : Queue}
  {log rest : List Bytes} {heard : Heard} {handle : Handle} {was : Option Stream} {piece : Bytes}

theorem answer_record (hsound : (handle.ring s.files).Sound) (h : (handle.ring s.files).Stands none rest piece)
    (hfind : s.find? name = some handle) : s.answer path (.record name) = .ok (.record rest.head?) := by
  rw [answer, Session.record]
  simp only [Session.change, hfind]
  cases rest with
  | nil =>
    rw [h.lies.record_nil hsound]
    rfl
  | cons payload more =>
    rw [h.lies.record hsound]
    rfl

theorem answer_read (hsound : (handle.ring s.files).Sound) (h : (handle.ring s.files).Stands none rest piece)
    (hfind : s.find? name = some handle) (hpath : handle.path = path) (buffer : Bytes) :
    s.answer path (.read name buffer) = filling path handle.cursor buffer rest := by
  rw [answer, Session.read]
  simp only [hfind]
  cases rest with
  | nil =>
    rw [h.lies.read_nil hsound]
    rfl
  | cons payload more =>
    rw [filling]
    by_cases hsmall : buffer.length < payload.length
    · rw [h.lies.read_small hsound hsmall, if_pos hsmall, ← hpath]
      rfl
    · rw [h.lies.read hsound hsmall, if_neg hsmall]
      rfl

theorem answer_startRead (hsound : (handle.ring s.files).Sound) (h : (handle.ring s.files).Stands none rest piece)
    (hfind : s.find? name = some handle) : s.answer path (.startRead name) = .ok (.started !rest.isEmpty) := by
  rw [answer, Session.startRead]
  simp only [hfind]
  cases rest with
  | nil =>
    rw [h.lies.startRead_nil hsound]
    rfl
  | cons payload more =>
    rw [h.lies.startRead hsound]
    rfl

/-- a handle in front of records that are kept -/
theorem Tracks.reads (h : s.Tracks path node capacity owner q log name heard handle was index)
    (hgone : q.gone log ≤ index) :
    s.Reads path name (log.drop index) := by
  have hhandle := h.has.based h.toBased
  have hsound := h.toInRange.sound hhandle
  have hstands := h.before.stands h.toLogged hhandle hgone
  refine ⟨?_, ?_, ?_, ?_⟩
  · intro found hfind
    obtain ⟨rfl, rfl⟩ := h.has.owner_eq (.free hfind)
    exact answer_record hsound hstands hfind
  · intro found buffer hfind
    obtain ⟨rfl, rfl⟩ := h.has.owner_eq (.free hfind)
    exact answer_read hsound hstands hfind hhandle.path_eq buffer
  · intro found hfind
    obtain ⟨rfl, rfl⟩ := h.has.owner_eq (.free hfind)
    exact answer_startRead hsound hstands hfind
  · intro found reader others hloans
    obtain ⟨rfl, rfl⟩ := h.has.owner_eq (.lent hloans)
    obtain ⟨payload, more, hrest, hfollows⟩ := hstands.reading reader rfl
    have hlies := hstands.lies
    rw [hrest] at hlies
    refine ⟨payload, more, hrest, hfollows.total_eq, hfollows.consumed_le, ?_, ?_, ?_, ?_⟩
    · intro length
      simp only [answer, Session.take, hloans]
      rw [hfollows.take hsound hlies]
      rfl
    · intro length
      simp only [answer, Session.readOn, hloans]
      rw [hfollows.takeExact hsound hlies]
      rfl
    · simp only [answer, Session.readOn, hloans]
      rw [hfollows.takeAll hsound hlies]
      rfl
    · rw [answer, finish_eq hloans, Request.conclude, hfollows.finish hsound hlies]
      rfl

end Reads

end Session

/-! ## What has been read -/

section Told

variable {name : String} {log : List Bytes} {gone first index index' : Nat} {request : Session.Request}
  {records records' : List (Bytes × Nat)} {indices : List Nat}

/-- while nothing that is ahead is gone, what has been read is the log from the first index on -/
theorem Progress.told (h : Progress name log gone request index records index' records')
    (hrewind : request ≠ .rewind name)
    (hgone : gone ≤ first + records'.length) (hindex : index = first + records.length)
    (htold : List.Forall₂ Heard.Tells records ((log.drop first).take records.length)) :
    index' = first + records'.length ∧ List.Forall₂ Heard.Tells records' ((log.drop first).take records'.length) := by
  cases h with
  | stayed => exact ⟨hindex, htold⟩
  | @passed payload entry hpayload htells =>
    have hahead : (log.drop first)[records.length]? = some payload := by rw [List.getElem?_drop, ← hindex, hpayload]
    refine ⟨by rw [List.length_append, List.length_singleton]; omega, ?_⟩
    rw [List.length_append, List.length_singleton, List.take_add_one, hahead]
    exact List.rel_append htold (.cons htells .nil)
  | rewound hrequest => exact absurd hrequest hrewind
  | dropped => exact ⟨by omega, htold⟩

/-- what has been read are the records with these indices, in the order of the log, and what was passed over is gone -/
structure Retells (log : List Bytes) (gone index : Nat) (records : List (Bytes × Nat)) (indices : List Nat) : Prop where
  told : List.Forall₂ (fun entry i => ∃ payload, log[i]? = some payload ∧ Heard.Tells entry payload) records indices
  ordered : indices.Pairwise (· < ·)
  behind : ∀ i ∈ indices, i < index
  passed : ∀ i, i < index → i ∉ indices → i < gone

/-- nothing has been read, and what was passed over is gone -/
theorem Retells.nil (h : index ≤ gone) : Retells log gone index [] [] :=
  ⟨.nil, .nil, List.forall_mem_nil _, fun _ hi _ => hi.trans_le h⟩

theorem Retells.more (h : Retells log gone index records indices) (more : List Bytes) {gone' : Nat}
    (hgone : gone ≤ gone') :
    Retells (log ++ more) gone' index records indices where
  told := by
    refine h.told.imp ?_
    rintro entry i ⟨payload, hpayload, htells⟩
    obtain ⟨hlt, -⟩ := List.getElem?_eq_some_iff.1 hpayload
    exact ⟨payload, (List.getElem?_append_left hlt).trans hpayload, htells⟩
  ordered := h.ordered
  behind := h.behind
  passed i hi hmissing := (h.passed i hi hmissing).trans_le hgone

/-- what one request adds, if the handle is never in front of a record that is gone -/
theorem Retells.next (h : Retells log gone index records indices)
    (hprogress : Progress name log gone request index records index' records') :
    ∃ indices', Retells log gone index' records' indices' := by
  cases hprogress with
  | stayed => exact ⟨indices, h⟩
  | @passed payload entry hpayload htells =>
    refine ⟨indices ++ [index], ?_, ?_, ?_, ?_⟩
    · exact List.rel_append h.told (.cons ⟨payload, hpayload, htells⟩ .nil)
    · rw [List.pairwise_append]
      refine ⟨h.ordered, List.pairwise_singleton _ _, ?_⟩
      intro i hi j hj
      rw [List.mem_singleton.1 hj]
      exact h.behind i hi
    · intro i hi
      rcases List.mem_append.1 hi with hold | hnew
      · exact Nat.lt_succ_of_lt (h.behind i hold)
      · rw [List.mem_singleton.1 hnew]
        exact Nat.lt_succ_self index
    · intro i hi hmissing
      rw [List.mem_append, List.mem_singleton, not_or] at hmissing
      exact h.passed i (by omega) hmissing.1
  | rewound => exact ⟨[], .nil le_rfl⟩
  | dropped =>
    refine ⟨indices, h.told, h.ordered, fun i hi => (h.behind i hi).trans_le (Nat.le_max_left _ _), ?_⟩
    intro i hi hmissing
    by_cases hold : i < index
    · exact h.passed i hold hmissing
    · omega

end Told

/-! ## Runs -/

namespace Session

section Run

variable {s : Session} {path : Path} {node capacity index first : Nat} {owner name : String} {q : Queue}
  {log : List Bytes}
  {heard : Heard} {handle : Handle} {was : Option Stream} {requests : List Request} {indices : List Nat}

/-- after any front of the requests, the ring has all records that are ahead of those that have been read -/
def Unlapped (path : Path) (capacity : Nat) (name : String) (first : Nat) (s : Session) (q : Queue) (log : List Bytes)
    (heard : Heard) (requests : List Request) : Prop :=
  ∀ done, done <+: requests →
    (log ++ q.log capacity (s.events path done)).drop (first + (s.hearAll path name heard done).records.length)
      <:+ (q.run capacity (s.events path done)).1.records

/-- what the first request asks comes before what the others ask -/
theorem run_events_cons (path : Path) (capacity : Nat) (s : Session) (q : Queue) (request : Request)
    (requests : List Request) :
    (q.run capacity (s.events path (request :: requests))).1
      = ((q.run capacity (request.event? s).toList).1.run capacity
        ((s.serve path request).1.events path requests)).1 := by
  rw [events_cons, Queue.run_append]

theorem log_events_cons (path : Path) (capacity : Nat) (s : Session) (q : Queue) (log : List Bytes) (request : Request)
    (requests : List Request) :
    log ++ q.log capacity (s.events path (request :: requests))
      = log ++ q.log capacity (request.event? s).toList
        ++ (q.run capacity (request.event? s).toList).1.log capacity
          ((s.serve path request).1.events path requests) := by
  rw [events_cons, Queue.log_append, List.append_assoc]

theorem Unlapped.tail {request : Request} (h : Unlapped path capacity name first s q log heard (request :: requests)) :
    Unlapped path capacity name first (s.serve path request).1 (q.run capacity (request.event? s).toList).1
      (log ++ q.log capacity (request.event? s).toList)
      (s.hear name heard request (s.answer path request)) requests := by
  intro done hdone
  have hkept := h (request :: done) (List.cons_prefix_cons.2 ⟨rfl, hdone⟩)
  rwa [log_events_cons, run_events_cons] at hkept

/-- **The handle that appends**, after any number of requests -/
theorem Tracks.run_appender (h : s.Tracks path node capacity owner q log name heard handle was index)
    (haccess : handle.access = .append) (hgone : q.gone log ≤ index)
    (hretells : Retells log (q.gone log) index heard.records indices)
    (hguests : ∀ request ∈ requests, request.guest owner) (hkeeps : ∀ request ∈ requests, request.keeps name) :
    ∃ handle' was' index' indices', (s.run path requests).1.Tracks path node capacity owner
        (q.run capacity (s.events path requests)).1 (log ++ q.log capacity (s.events path requests)) name
        (s.hearAll path name heard requests) handle' was' index'
      ∧ (q.run capacity (s.events path requests)).1.gone (log ++ q.log capacity (s.events path requests)) ≤ index'
      ∧ Retells (log ++ q.log capacity (s.events path requests))
        ((q.run capacity (s.events path requests)).1.gone (log ++ q.log capacity (s.events path requests))) index'
        (s.hearAll path name heard requests).records indices' := by
  induction requests generalizing s q log heard handle was index indices with
  | nil =>
    have hlog : log ++ q.log capacity (s.events path []) = log := List.append_nil log
    rw [hlog]
    exact ⟨handle, was, index, indices, h, hgone, hretells⟩
  | cons request requests ih =>
    obtain ⟨hguest, hguests⟩ := List.forall_mem_cons.1 hguests
    obtain ⟨hkeep, hkeeps⟩ := List.forall_mem_cons.1 hkeeps
    have hgrows : q.gone log
        ≤ (q.run capacity (request.event? s).toList).1.gone (log ++ q.log capacity (request.event? s).toList) :=
      Queue.gone_run h.suffix _
    have hmore := hretells.more (q.log capacity (request.event? s).toList) hgrows
    cases h.serve hguest hkeep hgone with
    | reached htracks hkept hnext hprogress =>
      obtain ⟨indices', hretells'⟩ := hmore.next hprogress
      obtain ⟨handle', was', index', all, hlast, hbehind, hall⟩ :=
        ih htracks (hkept.trans haccess) (hnext haccess) hretells' hguests hkeeps
      rw [run_events_cons, log_events_cons]
      exact ⟨handle', was', index', all, hlast, hbehind, hall⟩

end Run

/-! ## Where a run begins -/

section Begin

variable {fs : FileSystem} {s : Session} {path : Path} {node capacity : Nat} {owner name : String} {q : Queue}
  {log : List Bytes} {placing : Request}

/-- the handle that made the ring is in front of the log, which is empty -/
theorem tracks_create (hcreate : Session.create { files := fs } owner path capacity = (s, .ok ())) :
    ∃ node handle, s.Tracks path node capacity owner {} [] owner {} handle none 0 ∧ handle.access = .append := by
  obtain ⟨node, hreflects⟩ := reflects_create hcreate
  obtain ⟨made, handle, hmade, rfl⟩ := create_ok hcreate
  obtain ⟨-, -, -, himage, hopens, hhandle⟩ := Handle.of_create hmade
  have hfind := find?_bind_self ({ files := made } : Session) owner handle
  have hat := hreflects.find? hfind
  have hnode : handle.node = node := hat.node_eq
  subst hnode
  have haccess : handle.access = .append := by rw [hhandle]
  have hcursor : handle.cursor = 0 := by rw [hhandle]
  have hhas : (({ files := made } : Session).bind owner handle).Has owner handle none := ⟨hfind, rfl⟩
  have hmarks : (made.image handle.node).Marks capacity [] := by
    rw [himage, Image.Marks, Image.stop_blank, weight_nil, Nat.zero_mod]
  have hopens' : (made.image handle.node).Opens capacity := by rwa [himage]
  have hlogged : (({ files := made } : Session).bind owner handle).Logged path handle.node capacity {} [] :=
    { toReflects := hreflects, opens := hopens', streams := List.forall_mem_nil _, suffix := List.suffix_rfl,
      marks := hmarks }
  have hbefore : handle.Before none [] 0 [] := ⟨le_rfl, hcursor.trans (Nat.zero_mod _).symm, by simp⟩
  exact ⟨handle.node, handle, ⟨hlogged, .bind made owner handle, hhas, hbefore⟩, haccess⟩

/-- a handle is opened to read, or goes back to the oldest record; none is lent under its name -/
structure Places (s : Session) (name : String) (placing : Request) : Prop where
  request_eq : placing = .openRing name .read ∨ placing = .rewind name ∧ (s.find? name).isSome
  loans_eq : s.loans.filter (·.name == name) = []

/-- opening and going back ask nothing of the queue -/
theorem Places.event?_eq_none (h : s.Places name placing) : placing.event? s = none := by
  rcases h.request_eq with rfl | ⟨rfl, -⟩ <;> rfl

end Begin

/-- how many of the committed records the ring has no more after the requests -/
def evicted (path : Path) (capacity : Nat) (s : Session) (requests : List Request) : Nat :=
  (s.committed path capacity requests).length - (s.kept path capacity requests).length

/-- what has been read under this name in the later requests -/
def delivered (path : Path) (name : String) (s : Session) (first later : List Request) : Heard :=
  (s.run path first).1.hearAll path name {} later

end Session

/-! ## Whoever is not lapped -/

open Session

/-- the handle is in front of the last of the records that are kept -/
structure Handle.InFront (handle : Handle) (fs : FileSystem) (kept rest : List Bytes) : Prop where
  cursor_eq : ∃ older, kept = older ++ rest
    ∧ handle.cursor = ((fs.image handle.node).start + weight older) % handle.capacity
  lies : (fs.image handle.node).Lies handle.capacity handle.cursor rest
  stop_iff : handle.cursor = (fs.image handle.node).stop ↔ rest = []

theorem Session.Tracks.in_front {s : Session} {path : Path} {node capacity index : Nat}
    {owner name : String} {q : Queue} {log : List Bytes} {heard : Heard} {handle : Handle} {was : Option Stream}
    (h : s.Tracks path node capacity owner q log name heard handle was index) (hgone : q.gone log ≤ index) :
    handle.InFront s.files q.records (log.drop index) := by
  have hhandle := h.has.based h.toBased
  obtain rfl : handle.node = node := hhandle.node_eq
  obtain rfl : handle.capacity = capacity := hhandle.capacity_eq
  have hopens : (s.files.image handle.node).Opens handle.capacity := h.opens
  have hholds := h.holds hhandle.cursor_lt
  have hlies : (s.files.image handle.node).Lies handle.capacity handle.cursor (log.drop index) :=
    (h.before.stands h.toLogged hhandle hgone).lies
  obtain ⟨older, hkept⟩ := Queue.suffix_of_gone_le h.suffix hgone
  have hfront : (s.files.image handle.node).Lies handle.capacity (s.files.image handle.node).start
      (older ++ log.drop index) := by
    rw [hkept]
    exact hholds.lies
  have hcursor := hlies.offset_eq (hfront.behind hopens hopens.start_lt) hhandle.cursor_lt (Nat.mod_lt _ hopens.pos)
  exact ⟨⟨older, hkept.symm, hcursor⟩, hlies, hlies.eq_stop_iff hhandle.cursor_lt hopens.stop_lt⟩

/-- **In front of a record that is kept, or behind all of them.** A ring has just been made, and the handle that made it
is the only one that appends, whatever is asked of it and of others that read. Then its cursor is at the first byte of a
kept record or at the stop offset. What has been read since it last went back are records of the log in their order,
none twice; those that were passed over have been evicted; and what is read next is the record at the cursor, if there
is one. -/
theorem appender_stands_before_kept_records {fs : FileSystem} {path : Path} {capacity : Nat} {owner : String}
    {s : Session}
    (hcreate : Session.create { files := fs } owner path capacity = (s, .ok ())) {requests : List Session.Request}
    (hguests : ∀ request ∈ requests, request.guest owner) (hkeeps : ∀ request ∈ requests, request.keeps owner) :
    ∃ handle was rest index indices, (s.run path requests).1.Has owner handle was
      ∧ handle.InFront (s.run path requests).1.files (s.kept path capacity requests) rest
      ∧ rest = (s.committed path capacity requests).drop index
      ∧ Retells (s.committed path capacity requests) (s.evicted path capacity requests) index
        (s.hearAll path owner {} requests).records indices
      ∧ (s.run path requests).1.Reads path owner rest := by
  obtain ⟨node, handle, hmade, haccess⟩ := tracks_create hcreate
  obtain ⟨handle', was, index, indices, hlast, hgone, hall⟩ :=
    hmade.run_appender haccess le_rfl (.nil le_rfl) hguests hkeeps
  exact ⟨handle', was, _, index, indices, hlast.has, hlast.in_front hgone, rfl, hall, hlast.reads hgone⟩

/-- the handle goes back and loses the record in front of it to a record that is abandoned -/
def evictingRequests : List Session.Request :=
  [.append "a" [1, 2, 3], .append "a" [4], .record "a", .rewind "a", .startWrite "a" 4, .put [5, 6], .leave,
    .record "a", .append "a" [7], .startRead "a", .takeExact 1, .finish]

theorem appender_stands_before_kept_records_evicting :
    Session.create {} "a" FileSystem.singleName 9 = (smallSession, .ok ())
      ∧ (∀ request ∈ evictingRequests, request.guest "a") ∧ (∀ request ∈ evictingRequests, request.keeps "a")
      ∧ ∃ handle was rest index indices, (smallSession.run FileSystem.singleName evictingRequests).1.Has "a" handle was
        ∧ handle.InFront (smallSession.run FileSystem.singleName evictingRequests).1.files [[4], [7]] rest
        ∧ rest = [[1, 2, 3], [4], [7]].drop index
        ∧ Retells [[1, 2, 3], [4], [7]] 1 index [([4], 1), ([7], 1)] indices
        ∧ (smallSession.run FileSystem.singleName evictingRequests).1.Reads FileSystem.singleName "a" rest := by
  have hmade : Session.create {} "a" FileSystem.singleName 9 = (smallSession, .ok ()) := by decide +kernel
  have hguests : ∀ request ∈ evictingRequests, request.guest "a" := by decide
  have hkeeps : ∀ request ∈ evictingRequests, request.keeps "a" := by decide
  have hall := appender_stands_before_kept_records hmade hguests hkeeps
  have hcommitted : smallSession.committed FileSystem.singleName 9 evictingRequests
      = [[1, 2, 3], [4], [7]] := by decide +kernel
  have hkept : smallSession.kept FileSystem.singleName 9 evictingRequests = [[4], [7]] := by decide +kernel
  have hevicted : smallSession.evicted FileSystem.singleName 9 evictingRequests = 1 := by decide +kernel
  have hrecords : (smallSession.hearAll FileSystem.singleName "a" {} evictingRequests).records
      = [([4], 1), ([7], 1)] := by
    decide +kernel
  rw [hcommitted, hkept, hevicted, hrecords] at hall
  exact ⟨hmade, hguests, hkeeps, hall⟩

end CircularLog
