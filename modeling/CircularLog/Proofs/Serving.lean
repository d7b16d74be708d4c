/-
Requests and the queue. Each request that reaches an appending handle or a writer is answered as the queue answers its
event, and leaves the session standing for the queue behind that event.

- `Session.Reflects.append`, `Session.Reflects.startWrite`, `Session.Reflects.put`, `Session.Reflects.finish`,
  `Session.Reflects.leave`: one event each.
- `Session.Reflects.serve`: every request, if no two records are being written at once.
- `Session.Reflects.run`: every run of requests.
-/
import CircularLog.Proofs.Reflection

namespace CircularLog.Session

section Serve

variable {s : Session} {path : Path} {node capacity : Nat} {q : Queue} {name : String} {handle : Handle}

theorem access_of_appender (h : s.appender name = .ok handle) : handle.access = .append := by
  unfold appender at h
  split at h
  · cases h
  · split at h
    · rename_i hfound
      rwa [← Except.ok.inj h]
    · cases h

namespace Reflects

/-! ## Appending -/

theorem appender_ok (h : s.appender name = .ok handle) : s.find? name = some handle := by
  unfold appender at h
  split at h
  · cases h
  · rename_i found hfind
    split at h
    · rw [hfind, Except.ok.inj h]
    · cases h

theorem append (h : s.Reflects path node capacity q) (hnone : q.pending = none)
    (happender : s.appender name = .ok handle) (payload : Bytes) :
    (s.append name payload).1.Reflects path node capacity (q.step capacity (.append payload)).1
      ∧ (s.append name payload).2 = (q.step capacity (.append payload)).2.reply path := by
  obtain ⟨records, pending⟩ := q
  obtain rfl : pending = none := hnone
  have hfind := appender_ok happender
  have hhandle := h.find? hfind
  have hring := ring_eq (s := s) hhandle
  have hholds := h.holds hhandle.cursor_lt
  simp only [Session.append, happender, Session.change, hfind, Queue.step, hhandle.path_eq]
  by_cases hfits : frameLength payload.length < capacity
  · obtain ⟨r₁, happend, hcapacity, hholds₁⟩ := hholds.append hfits
    rw [if_pos hfits, hring, happend]
    exact ⟨h.toBased.save hhandle hcapacity hholds₁ h.writers_eq, rfl⟩
  · have hrefused : Ring.append { image := s.files.image node, capacity, cursor := handle.cursor } payload
        = ({ image := s.files.image node, capacity, cursor := handle.cursor },
          refuse (.recordTooLarge capacity payload.length)) :=
      Ring.append_of_stop (Ring.makeRoom_of_not_fits hfits)
    rw [if_neg hfits, hring, hrefused]
    exact ⟨h.toBased.save hhandle rfl hholds h.writers_eq, rfl⟩

theorem startWrite_eq (happender : s.appender name = .ok handle) (total : Nat) :
    s.startWrite name total
      = match Writer.start (handle.ring s.files) total with
        | (r, .error stop) => (s.save name handle r, .error (.ofStop handle.path stop))
        | (r, .ok writer) =>
          ((s.save name handle r).lend
            { name, handle := { handle with cursor := r.cursor }, stream := .writing writer }, .ok ()) := by
  simp only [Session.startWrite, happender]
  rcases Writer.start (handle.ring s.files) total with ⟨r, stop | writer⟩ <;> rfl

theorem startWrite (h : s.Reflects path node capacity q) (hnone : q.pending = none)
    (happender : s.appender name = .ok handle) (total : Nat) :
    (s.startWrite name total).1.Reflects path node capacity (q.step capacity (.start total)).1
      ∧ (s.startWrite name total).2 = (q.step capacity (.start total)).2.reply path := by
  obtain ⟨records, pending⟩ := q
  obtain rfl : pending = none := hnone
  have hhandle := h.find? (appender_ok happender)
  have hring := ring_eq (s := s) hhandle
  have hholds := h.holds hhandle.cursor_lt
  rw [startWrite_eq happender, hring]
  by_cases hfits : frameLength total < capacity
  · obtain ⟨r₁, hstart, hcapacity, hwrites⟩ := hholds.startWrite hfits
    subst hcapacity
    have hhandle' : Handle.At { handle with cursor := r₁.cursor } path node r₁.capacity :=
      ⟨hhandle.path_eq, hhandle.node_eq, hhandle.capacity_eq, hwrites.cursor_lt⟩
    have hon : Queue.On
        { records := Queue.room r₁.capacity (frameLength total) records, pending := some (total, []) } r₁ :=
      hwrites
    simp only [hstart, Queue.step, if_pos hfits]
    refine ⟨h.toBased.reflects r₁.image ?_ ?_ ?_ (hon.seek hwrites.pos) ?_, rfl⟩
    · simp only [Session.lend, Session.save, Ring.save, Session.bind, Session.release, hhandle.node_eq]
    · exact handles_release (handles_bind (s := { s with files := s.files.setImage handle.node r₁.image }) h.handles
        hhandle')
    · exact List.forall_mem_cons.2 ⟨hhandle', h.loans⟩
    · have hwriters : s.writers = [] := h.writers_eq
      rw [writers_lend, writers_save, hwriters]
      rfl
  · have hrefused : Writer.start { image := s.files.image node, capacity, cursor := handle.cursor } total
        = ({ image := s.files.image node, capacity, cursor := handle.cursor },
          refuse (.recordTooLarge capacity total)) :=
      Ring.start_of_stop (Ring.makeRoom_of_not_fits hfits)
    simp only [hrefused, Queue.step, if_neg hfits, refuse, hhandle.path_eq]
    exact ⟨h.toBased.save hhandle rfl hholds h.writers_eq, rfl⟩

/-! ## The record that is being written -/

/-- the latest loan writes the pending record, and no other loan writes any -/
theorem latest (h : s.Reflects path node capacity q) {writer : Writer} {rest : List Loan}
    (hloans : s.loans = { name, handle, stream := .writing writer } :: rest) :
    handle.At path node capacity ∧ (∀ loan ∈ rest, loan.handle.At path node capacity)
      ∧ rest.filterMap (·.stream.writer?) = []
      ∧ ∃ records total written, q = { records, pending := some (total, written) }
        ∧ writer = Writer.behind (handle.ring s.files) total written
        ∧ (handle.ring s.files).Writes records total written := by
  have hall := h.loans
  rw [hloans, List.forall_mem_cons] at hall
  obtain ⟨hhandle, hrest⟩ := hall
  have hwriters := h.writers_eq
  rw [writers, hloans] at hwriters
  rcases q with ⟨records, _ | ⟨total, written⟩⟩
  · cases hwriters
  · obtain ⟨hwriter, hothers⟩ := List.cons.inj hwriters
    have hon := h.content.seek hhandle.cursor_lt
    refine ⟨hhandle, hrest, hothers, records, total, written, rfl, ?_⟩
    rw [ring_eq hhandle]
    exact ⟨hwriter, hon⟩

theorem put (h : s.Reflects path node capacity q) {writer : Writer} {rest : List Loan}
    (hloans : s.loans = { name, handle, stream := .writing writer } :: rest) (chunk : Bytes) :
    (s.put chunk).1.Reflects path node capacity (q.step capacity (.put chunk)).1
      ∧ (s.put chunk).2 = (q.step capacity (.put chunk)).2.reply path := by
  obtain ⟨hhandle, hrest, hothers, records, total, written, rfl, rfl, hwrites⟩ := h.latest hloans
  have hring := ring_eq (s := s) hhandle
  rw [hring] at hloans hwrites
  simp only [Session.put, hloans, hring, Queue.step]
  by_cases hlong : total < written.length + chunk.length
  · rw [hwrites.put_too_long hlong, if_pos hlong]
    simp only [refuse, hhandle.path_eq]
    exact ⟨h, rfl⟩
  · obtain ⟨image, hput, hwrites'⟩ := hwrites.put (Nat.le_of_not_lt hlong)
    have hon : Queue.On { records, pending := some (total, written ++ chunk) }
        { image, capacity, cursor := handle.cursor } := hwrites'
    rw [hput, if_neg hlong]
    refine ⟨h.toBased.reflects image ?_ h.handles ?_ (hon.seek hwrites'.pos) ?_, rfl⟩
    · simp only [Ring.save, hhandle.node_eq]
    · exact List.forall_mem_cons.2 ⟨hhandle, hrest⟩
    · rw [writers, List.filterMap_cons, hothers]
      rfl

/-- without the latest loan, whose record was being written -/
theorem drop_writer (h : s.Reflects path node capacity q) {writer : Writer} {rest : List Loan}
    (hloans : s.loans = { name, handle, stream := .writing writer } :: rest) :
    ({ s with loans := rest } : Session).Reflects path node capacity { q with pending := none } := by
  obtain ⟨-, hrest, hothers, -⟩ := h.latest hloans
  exact
    { lookup := h.lookup
      node_lt := h.node_lt
      handles := h.handles
      loans := hrest
      content := h.content.holds
      writers_eq := hothers }

/-- without the latest loan, whose record was being read -/
theorem drop_reader (h : s.Reflects path node capacity q) {reader : Reader} {rest : List Loan}
    (hloans : s.loans = { name, handle, stream := .reading reader } :: rest) :
    handle.At path node capacity ∧ ({ s with loans := rest } : Session).Reflects path node capacity q := by
  have hall := h.loans
  rw [hloans, List.forall_mem_cons] at hall
  refine ⟨hall.1, h.of_files rfl h.handles hall.2 ?_⟩
  rw [writers, writers, hloans]
  rfl

theorem finish (h : s.Reflects path node capacity q) {writer : Writer} {rest : List Loan}
    (hloans : s.loans = { name, handle, stream := .writing writer } :: rest) :
    s.finish.1.Reflects path node capacity (q.step capacity .finish).1
      ∧ s.finish.2 = (q.step capacity .finish).2.reply path := by
  have hdropped := h.drop_writer hloans
  obtain ⟨hhandle, -, hothers, records, total, written, rfl, rfl, hwrites⟩ := h.latest hloans
  have hring := ring_eq (s := s) hhandle
  have hring' := ring_eq (s := { s with loans := rest }) hhandle
  rw [hring] at hloans hwrites
  simp only [Session.finish, hloans, hring', Queue.step]
  by_cases hall : written.length = total
  · subst hall
    obtain ⟨image, hfinish, hholds⟩ := hwrites.finish
    have hon : Queue.On { records := records ++ [written] } { image, capacity, cursor := handle.cursor } := hholds
    rw [hfinish, if_pos rfl]
    exact ⟨hdropped.toBased.save hhandle rfl hon hothers, rfl⟩
  · rw [hwrites.finish_short hall, if_neg hall]
    simp only [refuse, hhandle.path_eq]
    exact ⟨hdropped.bind hhandle, rfl⟩

theorem leave (h : s.Reflects path node capacity q) {writer : Writer} {rest : List Loan}
    (hloans : s.loans = { name, handle, stream := .writing writer } :: rest) :
    s.leave.Reflects path node capacity (q.step capacity .leave).1 := by
  have hhandle := (h.latest hloans).1
  rw [Session.leave, hloans]
  exact (h.drop_writer hloans).bind hhandle

/-- ending a record that is being read moves the handle's cursor at most -/
theorem finish_reader (h : s.Reflects path node capacity q) {reader : Reader} {rest : List Loan}
    (hloans : s.loans = { name, handle, stream := .reading reader } :: rest) :
    s.finish.1.Reflects path node capacity q := by
  obtain ⟨hhandle, hdropped⟩ := h.drop_reader hloans
  simp only [Session.finish, hloans]
  cases hfinish : reader.finish (handle.ring s.files) with
  | error stop => exact hdropped.bind hhandle
  | ok r =>
    obtain ⟨cursor, hcursor, rfl⟩ := Ring.finish_keeps (h.sound hhandle) hfinish
    rw [ring_eq hhandle] at hcursor
    exact hdropped.save_cursor hhandle hcursor

theorem leave_reader (h : s.Reflects path node capacity q) {reader : Reader} {rest : List Loan}
    (hloans : s.loans = { name, handle, stream := .reading reader } :: rest) :
    s.leave.Reflects path node capacity q := by
  obtain ⟨hhandle, hdropped⟩ := h.drop_reader hloans
  rw [Session.leave, hloans]
  exact hdropped.bind hhandle

/-! ## Any request -/

theorem pending_none (h : s.Reflects path node capacity q) (hwriters : s.writers = []) : q.pending = none := by
  rw [h.writers_eq] at hwriters
  rcases q with ⟨records, _ | ⟨total, written⟩⟩
  · rfl
  · cases hwriters

theorem loans_cases (s : Session) :
    s.loans = [] ∧ s.writing = false
      ∨ (∃ name handle reader rest, s.loans = { name, handle, stream := .reading reader } :: rest ∧ s.writing = false)
      ∨ ∃ name handle writer rest, s.loans = { name, handle, stream := .writing writer } :: rest
        ∧ s.writing = true := by
  rcases hloans : s.loans with _ | ⟨⟨name, handle, writer | reader⟩, rest⟩
  · exact Or.inl ⟨rfl, by rw [writing, hloans]; rfl⟩
  · exact Or.inr (Or.inr ⟨name, handle, writer, rest, rfl, by rw [writing, hloans]; rfl⟩)
  · exact Or.inr (Or.inl ⟨name, handle, reader, rest, rfl, by rw [writing, hloans]; rfl⟩)

/-- the session follows the queue: by its event, if the request has one, and else not at all -/
theorem serve (h : s.Reflects path node capacity q) (request : Request) (hadmits : s.Admits request) :
    match request.event? s with
    | some event =>
      (s.serve path request).1.Reflects path node capacity (q.step capacity event).1
        ∧ (s.serve path request).2 = (q.step capacity event).2.reply path
    | none => (s.serve path request).1.Reflects path node capacity q := by
  cases request with
  | openRing name access => exact h.openRing name access
  | close name => exact h.close name
  | rewind name => exact h.change name fun r hsound => ⟨r.image.start, hsound.start_lt, rfl⟩
  | record name => exact h.change name fun r hsound => Ring.record_keeps hsound
  | read name buffer => exact h.read name buffer
  | startRead name => exact h.startRead name
  | turn index => exact h.turn index
  | take length => exact h.take length
  | takeExact length => exact h.readOn fun reader r => reader.takeExact r length
  | takeAll => exact h.readOn Reader.takeAll
  | append name payload =>
    cases happender : s.appender name with
    | error denial =>
      simp only [Request.event?, happender, Except.toOption, Option.map_none, Session.serve, Session.append]
      exact h
    | ok handle =>
      have hevent : Request.event? s (.append name payload) = some (.append payload) := by
        simp only [Request.event?, happender, Except.toOption, Option.map_some]
      rw [Admits, hevent] at hadmits
      rw [hevent]
      exact h.append (h.pending_none (hadmits rfl)) happender payload
  | startWrite name total =>
    cases happender : s.appender name with
    | error denial =>
      simp only [Request.event?, happender, Except.toOption, Option.map_none, Session.serve, Session.startWrite]
      exact h
    | ok handle =>
      have hevent : Request.event? s (.startWrite name total) = some (.start total) := by
        simp only [Request.event?, happender, Except.toOption, Option.map_some]
      rw [Admits, hevent] at hadmits
      rw [hevent]
      exact h.startWrite (h.pending_none (hadmits rfl)) happender total
  | put chunk =>
    rcases loans_cases s with ⟨hloans, hwriting⟩ | ⟨name, handle, reader, rest, hloans, hwriting⟩
      | ⟨name, handle, writer, rest, hloans, hwriting⟩
    · simp only [Request.event?, hwriting, Session.serve, Session.put, hloans]
      exact h
    · simp only [Request.event?, hwriting, Session.serve, Session.put, hloans]
      exact h
    · simp only [Request.event?, hwriting, if_pos]
      exact h.put hloans chunk
  | finish =>
    rcases loans_cases s with ⟨hloans, hwriting⟩ | ⟨name, handle, reader, rest, hloans, hwriting⟩
      | ⟨name, handle, writer, rest, hloans, hwriting⟩
    · simp only [Request.event?, hwriting, Session.serve, Session.finish, hloans]
      exact h
    · simp only [Request.event?, hwriting]
      exact h.finish_reader hloans
    · simp only [Request.event?, hwriting, if_pos]
      exact h.finish hloans
  | leave =>
    rcases loans_cases s with ⟨hloans, hwriting⟩ | ⟨name, handle, reader, rest, hloans, hwriting⟩
      | ⟨name, handle, writer, rest, hloans, hwriting⟩
    · simp only [Request.event?, hwriting, Session.serve, Session.leave, hloans]
      exact h
    · simp only [Request.event?, hwriting]
      exact h.leave_reader hloans
    · simp only [Request.event?, hwriting, if_pos]
      exact ⟨h.leave hloans, rfl⟩

/-- and so it does over a whole run -/
theorem run (h : s.Reflects path node capacity q) {requests : List Request} (horderly : s.Orderly path requests) :
    (s.run path requests).1.Reflects path node capacity (q.run capacity ((s.run path requests).2.map Prod.fst)).1
      ∧ (s.run path requests).2.map Prod.snd
        = (q.run capacity ((s.run path requests).2.map Prod.fst)).2.map (·.reply path) := by
  induction requests generalizing s q with
  | nil => exact ⟨h, rfl⟩
  | cons request requests ih =>
    obtain ⟨hadmits, horderly⟩ := horderly
    have hserve := h.serve request hadmits
    cases hevent : request.event? s with
    | none =>
      rw [hevent] at hserve
      simp only [Session.run, hevent, Option.toList_none, List.map_nil, List.nil_append]
      exact ih hserve horderly
    | some event =>
      rw [hevent] at hserve
      obtain ⟨hreflects, hanswer⟩ := hserve
      obtain ⟨hlast, hanswers⟩ := ih hreflects horderly
      simp only [Session.run, hevent, Option.toList_some, List.map_cons, List.map_nil, List.cons_append,
        List.nil_append, Queue.run]
      exact ⟨hlast, by rw [hanswer, hanswers]⟩

end Reflects

end Serve

end CircularLog.Session
