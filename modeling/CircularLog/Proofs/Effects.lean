/-
What a request does. Whatever it is, it concerns one handle at most, which is free or is lent out to the latest loan;
the handle has its ring, and the ring alone decides what becomes of the bytes, of the cursor and of the record in
pieces.

- `Session.answer`: what the caller is given, beside the session that `Session.serve` gives.
- `Session.Request.act`: what a request does to the ring of its handle.
- `Session.effect`: all that a request can do to a session. What is proved about sessions after this goes by its cases.
-/
import CircularLog.Proofs.Serving

namespace CircularLog.Session

/-- what a request comes to that is not refused -/
inductive Answer where
  | done
  | record (payload : Option Bytes)
  /-- the caller's buffer afterwards, and the length of the record in it, unless there is none -/
  | filled (buffer : Bytes) (length : Option Nat)
  | started (found : Bool)
  | piece (bytes : Bytes)
  /-- as many bytes as were asked for, or nothing, when the record ended before -/
  | exact (bytes : Option Bytes)
deriving DecidableEq, Repr

/-- what the caller of a request is given -/
def answer (path : Path) (s : Session) : Request → Reply Answer
  | .openRing name access => (s.openRing name path access).2.map fun _ => .done
  | .close name => (s.close name).2.map fun _ => .done
  | .rewind name => (s.rewind name).2.map fun _ => .done
  | .record name => (s.record name).2.map .record
  | .read name buffer =>
    match (s.read name buffer).2 with
    | .error denial => .error denial
    | .ok (buffer, length) => length.map (.filled buffer)
  | .append name payload => (s.append name payload).2.map fun _ => .done
  | .startWrite name total => (s.startWrite name total).2.map fun _ => .done
  | .startRead name => (s.startRead name).2.map .started
  | .turn _ => .ok .done
  | .put chunk => (s.put chunk).2.map fun _ => .done
  | .take length => (s.take length).2.2.map fun _ => .piece (s.take length).2.1
  | .takeExact length => (s.readOn fun reader r => reader.takeExact r length).2.map .exact
  | .takeAll => (s.readOn Reader.takeAll).2.map .piece
  | .finish => s.finish.2.map fun _ => .done
  | .leave => .ok .done

namespace Request

/-- the handle that a request asks for by its name; the others are for the latest loan -/
def name? : Request → Option String
  | .close name | .rewind name | .record name | .read name _ | .append name _ | .startWrite name _ | .startRead name =>
    some name
  | _ => none

/-- whether a request appends a record or begins one, which takes a handle that may -/
def begins : Request → Bool
  | .append _ _ | .startWrite _ _ => true
  | _ => false

/-- the end of a record in pieces -/
def conclude (r : Ring) : Stream → Outcome Ring
  | .writing writer => writer.finish r
  | .reading reader => reader.finish r

/-- what a request does to the ring of its handle and to the record in pieces that the handle is lent to, if it is lent:
both of them afterwards, and what it comes to; nothing, where it is not for such a handle -/
def act (r : Ring) : Request → Option Stream → Option (Ring × Option Stream × Outcome Answer)
  | .rewind _, none => some (r.rewind, none, .ok .done)
  | .record _, none => some ((r.after r.record).1, none, (r.after r.record).2.map .record)
  | .read _ buffer, none =>
    some ((r.after (r.read buffer).2).1, none, (r.after (r.read buffer).2).2.map (.filled (r.read buffer).1))
  | .append _ payload, none => some ((r.append payload).1, none, (r.append payload).2.map fun _ => .done)
  | .startWrite _ total, none =>
    match Writer.start r total with
    | (next, .error stop) => some (next, none, .error stop)
    | (next, .ok writer) => some (next, some (.writing writer), .ok .done)
  | .startRead _, none =>
    match Reader.start r with
    | .error stop => some (r, none, .error stop)
    | .ok none => some (r, none, .ok (.started false))
    | .ok (some reader) => some (r, some (.reading reader), .ok (.started true))
  | .put chunk, some (.writing writer) =>
    match writer.put r chunk with
    | .error stop => some (r, some (.writing writer), .error stop)
    | .ok (next, writer) => some (next, some (.writing writer), .ok .done)
  | .take length, some (.reading reader) =>
    match reader.take r length with
    | (_, .error stop) => some (r, some (.reading reader), .error stop)
    | (delivered, .ok next) => some (r, some (.reading next), .ok (.piece delivered))
  | .takeExact length, some (.reading reader) =>
    some (r, some (.reading (reader.takeExact r length).1), (reader.takeExact r length).2.map .exact)
  | .takeAll, some (.reading reader) =>
    some (r, some (.reading (reader.takeAll r).1), (reader.takeAll r).2.map .piece)
  | .finish, some stream =>
    match conclude r stream with
    | .error stop => some (r, none, .error stop)
    | .ok next => some (next, none, .ok .done)
  | .leave, some _ => some (r, none, .ok .done)
  | _, _ => none

end Request

/-- a handle, free under its name or lent out to the latest loan, and the loans beside it -/
inductive Owner (s : Session) (name : String) (handle : Handle) : Option Stream → List Loan → Prop
  | free : s.find? name = some handle → Owner s name handle none s.loans
  | lent {stream : Stream} {rest : List Loan} : s.loans = { name, handle, stream } :: rest →
      Owner s name handle (some stream) rest

/-- the handle has become this one, free or lent, and no other has changed -/
structure Settles (s s' : Session) (name : String) (handle : Handle) (was now : Option Stream) (rest : List Loan) :
    Prop where
  handles : ∀ entry ∈ s'.handles, entry = (name, handle) ∨ entry ∈ s.handles
  others : ∀ other, other ≠ name → s'.find? other = s.find? other
  self : s'.find? name = match now with
    | none => some handle
    | some _ => if was = none then none else s.find? name
  loans : s'.loans = match now with
    | none => rest
    | some stream => { name, handle, stream } :: rest

/-- what a request can do to a session, and what its caller is given -/
inductive Effect (path : Path) (s : Session) : Request → Session → Reply Answer → Prop
  /-- there is no such handle -/
  | unknown {request : Request} : request.event? s = none → Effect path s request s (.error .unknownHandle)
  | reader {request : Request} : request.begins → request.event? s = none →
      Effect path s request s (.error .notAppender)
  /-- there is no such loan -/
  | idle {request : Request} : request = .leave ∨ (∃ index, request = .turn index) → request.event? s = none →
      Effect path s request s (.ok .done)
  | opened {name : String} {access : Access} {handle : Handle} : Handle.openRing s.files path access = .ok handle →
      Effect path s (.openRing name access) (s.bind name handle) (.ok .done)
  | unopened {name : String} {access : Access} {stop : Stop} : Handle.openRing s.files path access = .error stop →
      Effect path s (.openRing name access) s (.error (.ofStop path stop))
  | closed {name : String} {handle : Handle} : s.find? name = some handle →
      Effect path s (.close name) (s.release name) (.ok .done)
  | turned {index : Nat} {loan : Loan} : s.loans[index]? = some loan →
      Effect path s (.turn index) { s with loans := loan :: s.loans.eraseIdx index } (.ok .done)
  | acted {request : Request} {name : String} {handle : Handle} {was now : Option Stream} {rest : List Loan}
      {next : Ring} {result : Outcome Answer} {s' : Session} :
      s.Owner name handle was rest →
      request.act (handle.ring s.files) was = some (next, now, result) →
      s'.files = s.files.setImage handle.node next.image →
      s.Settles s' name { handle with cursor := next.cursor } was now rest →
      (was = none → request.name? = some name) →
      (request.begins → handle.access = .append) →
      Effect path s request s' (result.reply handle.path)

/-! ## Handles by their names -/

section Names

variable {s : Session} {path : Path} {name other : String} {handle : Handle} {rest : List Loan} {stream : Stream}

theorem find?_bind_self (s : Session) (name : String) (handle : Handle) :
    (s.bind name handle).find? name = some handle := by
  simp [Session.find?, Session.bind]

theorem find?_release_self (s : Session) (name : String) : (s.release name).find? name = none := by
  simp [Session.find?, Session.release]

theorem find?_release_of_ne (s : Session) (h : other ≠ name) : (s.release name).find? other = s.find? other := by
  simp only [Session.find?, Session.release, List.find?_filter]
  congr 2
  funext entry
  by_cases hentry : entry.1 = other
  · simp [hentry, h]
  · simp [hentry]

theorem find?_bind_of_ne (s : Session) (handle : Handle) (h : other ≠ name) :
    (s.bind name handle).find? other = s.find? other := by
  rw [← find?_release_of_ne s h]
  simp [Session.find?, Session.bind, Session.release, Ne.symm h]

theorem mem_bind {entry : String × Handle} (h : entry ∈ (s.bind name handle).handles) :
    entry = (name, handle) ∨ entry ∈ s.handles := by
  rcases List.mem_cons.1 h with hentry | hentry
  · exact Or.inl hentry
  · exact Or.inr (List.mem_of_mem_filter hentry)

/-- a handle is bound again, whether it was free or lent -/
theorem settles_bind (s : Session) (files : FileSystem) (name : String) (handle : Handle) (was : Option Stream)
    (rest : List Loan) : s.Settles ({ s with files, loans := rest }.bind name handle) name handle was none rest where
  handles _ hentry := mem_bind hentry
  others _ hother := find?_bind_of_ne _ _ hother
  self := find?_bind_self _ _ _
  loans := rfl

theorem settles_save (s : Session) (name : String) (handle : Handle) (r : Ring) :
    s.Settles (s.save name handle r) name { handle with cursor := r.cursor } none none s.loans :=
  settles_bind s _ name _ none s.loans

/-- a free handle is lent out -/
theorem settles_lend (s : Session) (name : String) (handle : Handle) (stream : Stream) :
    s.Settles (s.lend { name, handle, stream }) name handle none (some stream) s.loans where
  handles _ hentry := Or.inr (List.mem_of_mem_filter hentry)
  others _ hother := find?_release_of_ne s hother
  self := find?_release_self s name
  loans := rfl

/-- a free handle is lent out, and its ring has been saved -/
theorem settles_lend_save (s : Session) (name : String) (handle : Handle) (r : Ring) (stream : Stream) :
    s.Settles ((s.save name handle r).lend { name, handle := { handle with cursor := r.cursor }, stream }) name
      { handle with cursor := r.cursor } none (some stream) s.loans where
  handles _ hentry := (settles_save s name handle r).handles _ (List.mem_filter.1 hentry).1
  others other hother := by
    rw [← (settles_save s name handle r).others other hother]
    exact find?_release_of_ne _ hother
  self := find?_release_self _ name
  loans := rfl

/-- a handle stays lent out -/
theorem settles_keep (s : Session) (files : FileSystem) (name : String) (handle : Handle) (was stream : Stream)
    (rest : List Loan) :
    s.Settles { s with files, loans := { name, handle, stream } :: rest } name handle (some was)
      (some stream) rest where
  handles _ hentry := Or.inr hentry
  others _ _ := rfl
  self := rfl
  loans := rfl

/-- a free handle stays as it was -/
theorem settles_self (h : s.find? name = some handle) : s.Settles s name handle none none s.loans where
  handles _ hentry := Or.inr hentry
  others _ _ := rfl
  self := h
  loans := rfl

end Names

/-! ## All that a request can do -/

section Effect

variable {s : Session} {path : Path} {request : Request} {name : String} {handle : Handle}

/-- an appending handle is missing: there is no handle at all, or it only reads -/
theorem appender_error {denial : Denial} (h : s.appender name = .error denial) :
    denial = .unknownHandle ∨ denial = .notAppender := by
  unfold Session.appender at h
  split at h
  · exact Or.inl (Except.error.inj h).symm
  · split at h
    · cases h
    · exact Or.inr (Except.error.inj h).symm

/-- where no record is being written, only what begins one asks anything of the queue -/
theorem event?_eq_none (hbegins : request.begins = false) (hwriting : s.writing = false) : request.event? s = none := by
  cases request with
  | append _ _ | startWrite _ _ => cases hbegins
  | put _ | finish | leave => rw [Request.event?, hwriting]; rfl
  | _ => rfl

theorem append_event?_eq_none {denial : Denial} (h : s.appender name = .error denial) (payload : Bytes) :
    Request.event? s (.append name payload) = none := by
  simp only [Request.event?, h, Except.toOption, Option.map_none]

theorem startWrite_event?_eq_none {denial : Denial} (h : s.appender name = .error denial) (total : Nat) :
    Request.event? s (.startWrite name total) = none := by
  simp only [Request.event?, h, Except.toOption, Option.map_none]

/-- a request that asks this of the queue is for a handle that appends, or for the latest loan, which writes -/
inductive Asks (s : Session) : Request → Event → Prop
  | append {name : String} {payload : Bytes} {handle : Handle} : s.appender name = .ok handle →
      Asks s (.append name payload) (.append payload)
  | start {name : String} {total : Nat} {handle : Handle} : s.appender name = .ok handle →
      Asks s (.startWrite name total) (.start total)
  | put {chunk : Bytes} {name : String} {handle : Handle} {writer : Writer} {rest : List Loan} :
      s.loans = { name, handle, stream := .writing writer } :: rest → Asks s (.put chunk) (.put chunk)
  | finish {name : String} {handle : Handle} {writer : Writer} {rest : List Loan} :
      s.loans = { name, handle, stream := .writing writer } :: rest → Asks s .finish .finish
  | leave {name : String} {handle : Handle} {writer : Writer} {rest : List Loan} :
      s.loans = { name, handle, stream := .writing writer } :: rest → Asks s .leave .leave

theorem exists_of_writing (h : s.writing) :
    ∃ name handle writer rest, s.loans = { name, handle, stream := .writing writer } :: rest := by
  rcases Reflects.loans_cases s with ⟨-, hnone⟩ | ⟨_, _, _, _, -, hnone⟩ | ⟨name, handle, writer, rest, hloans, -⟩
  · rw [hnone] at h
    cases h
  · rw [hnone] at h
    cases h
  · exact ⟨name, handle, writer, rest, hloans⟩

theorem asks_of_event {event : Event} (hevent : request.event? s = some event) : s.Asks request event := by
  cases request with
  | append name payload =>
    obtain ⟨handle, happender, rfl⟩ := Option.map_eq_some_iff.1 hevent
    cases hfound : s.appender name with
    | error denial => simp [hfound, Except.toOption] at happender
    | ok handle => exact .append hfound
  | startWrite name total =>
    obtain ⟨handle, happender, rfl⟩ := Option.map_eq_some_iff.1 hevent
    cases hfound : s.appender name with
    | error denial => simp [hfound, Except.toOption] at happender
    | ok handle => exact .start hfound
  | put chunk =>
    obtain ⟨hwriting, ⟨⟩⟩ := Option.ite_none_right_eq_some.1 hevent
    obtain ⟨name, handle, writer, rest, hloans⟩ := exists_of_writing hwriting
    exact .put hloans
  | finish =>
    obtain ⟨hwriting, ⟨⟩⟩ := Option.ite_none_right_eq_some.1 hevent
    obtain ⟨name, handle, writer, rest, hloans⟩ := exists_of_writing hwriting
    exact .finish hloans
  | leave =>
    obtain ⟨hwriting, ⟨⟩⟩ := Option.ite_none_right_eq_some.1 hevent
    obtain ⟨name, handle, writer, rest, hloans⟩ := exists_of_writing hwriting
    exact .leave hloans
  | _ => cases hevent

theorem reply_map {α β : Type} (result : Outcome α) (value : α → β) (path : Path) :
    Outcome.reply (result.map value) path = (result.reply path).map value := by
  cases result <;> rfl

/-- a request to a free handle that leaves it free -/
theorem effect_change {α : Type} (f : Ring → Ring × Outcome α) (value : α → Answer) (hname : request.name? = some name)
    (hunknown : s.find? name = none → request.event? s = none)
    (haccess : request.begins → ∀ handle, s.find? name = some handle → handle.access = .append)
    (hact : ∀ r, request.act r none = some ((f r).1, none, (f r).2.map value)) :
    Effect path s request (s.change name f).1 ((s.change name f).2.map value) := by
  unfold Session.change
  cases hfind : s.find? name with
  | none => exact .unknown (hunknown hfind)
  | some handle =>
    have hsettles := settles_save s name handle (f (handle.ring s.files)).1
    have hacted : Effect path s request (s.save name handle (f (handle.ring s.files)).1) _ :=
      .acted (.free hfind) (hact _) rfl hsettles (fun _ => hname) (fun hbegins => haccess hbegins handle hfind)
    rwa [reply_map] at hacted

theorem effect_read (name : String) (buffer : Bytes) :
    Effect path s (.read name buffer) (s.read name buffer).1 (s.answer path (.read name buffer)) := by
  simp only [answer, Session.read]
  cases hfind : s.find? name with
  | none => exact .unknown rfl
  | some handle =>
    have hsettles := settles_save s name handle ((handle.ring s.files).after ((handle.ring s.files).read buffer).2).1
    have hacted : Effect path s (.read name buffer) _ _ :=
      .acted (.free hfind) rfl rfl hsettles (fun _ => rfl) (absurd · Bool.false_ne_true)
    rw [reply_map] at hacted
    exact hacted

theorem effect_append (name : String) (payload : Bytes) :
    Effect path s (.append name payload) (s.append name payload).1 (s.answer path (.append name payload)) := by
  simp only [answer, Session.append]
  cases happender : s.appender name with
  | error denial =>
    have hevent := append_event?_eq_none happender payload
    rcases appender_error happender with rfl | rfl
    · exact .unknown hevent
    · exact .reader rfl hevent
  | ok handle =>
    have hfind := Reflects.appender_ok happender
    have haccess := access_of_appender happender
    refine effect_change (·.append payload) (fun _ => .done) rfl ?_ ?_ fun _ => rfl
    · intro hnone
      cases hfind.symm.trans hnone
    · intro _ found hfound
      rwa [← Option.some.inj (hfind.symm.trans hfound)]

theorem effect_startWrite (name : String) (total : Nat) :
    Effect path s (.startWrite name total) (s.startWrite name total).1 (s.answer path (.startWrite name total)) := by
  rw [answer]
  cases happender : s.appender name with
  | error denial =>
    have hevent := startWrite_event?_eq_none happender total
    simp only [Session.startWrite, happender]
    rcases appender_error happender with rfl | rfl
    · exact .unknown hevent
    · exact .reader rfl hevent
  | ok handle =>
    have hfind := Reflects.appender_ok happender
    have haccess := access_of_appender happender
    rw [Reflects.startWrite_eq happender]
    rcases hstart : Writer.start (handle.ring s.files) total with ⟨r, stop | writer⟩
    · have hact : Request.act (handle.ring s.files) (.startWrite name total) none = some (r, none, .error stop) := by
        simp only [Request.act, hstart]
      exact .acted (.free hfind) hact rfl (settles_save s name handle r) (fun _ => rfl) (fun _ => haccess)
    · have hact : Request.act (handle.ring s.files) (.startWrite name total) none
          = some (r, some (.writing writer), .ok .done) := by
        simp only [Request.act, hstart]
      exact .acted (.free hfind) hact rfl (settles_lend_save s name handle r _) (fun _ => rfl) (fun _ => haccess)

theorem effect_startRead (name : String) :
    Effect path s (.startRead name) (s.startRead name).1 (s.answer path (.startRead name)) := by
  rw [answer]
  cases hfind : s.find? name with
  | none =>
    simp only [Session.startRead, hfind]
    exact .unknown rfl
  | some handle =>
    have hfiles : s.files = s.files.setImage handle.node (handle.ring s.files).image :=
      (FileSystem.setImage_image s.files handle.node).symm
    simp only [Session.startRead, hfind]
    rcases hstart : Reader.start (handle.ring s.files) with stop | _ | reader
    · have hact : Request.act (handle.ring s.files) (.startRead name) none
          = some (handle.ring s.files, none, .error stop) := by
        simp only [Request.act, hstart]
      exact .acted (.free hfind) hact hfiles (settles_self hfind) (fun _ => rfl) (absurd · Bool.false_ne_true)
    · have hact : Request.act (handle.ring s.files) (.startRead name) none
          = some (handle.ring s.files, none, .ok (.started false)) := by
        simp only [Request.act, hstart]
      exact .acted (.free hfind) hact hfiles (settles_self hfind) (fun _ => rfl) (absurd · Bool.false_ne_true)
    · have hact : Request.act (handle.ring s.files) (.startRead name) none
          = some (handle.ring s.files, some (.reading reader), .ok (.started true)) := by
        simp only [Request.act, hstart]
      exact .acted (.free hfind) hact hfiles (settles_lend s name handle _) (fun _ => rfl) (absurd · Bool.false_ne_true)

/-- what the record in pieces of the latest loan is asked for, if no new record begins -/
theorem effect_lent {stream : Stream} {now : Option Stream} {rest : List Loan} {next : Ring} {result : Outcome Answer}
    {s' : Session} (hloans : s.loans = { name, handle, stream } :: rest)
    (hact : request.act (handle.ring s.files) (some stream) = some (next, now, result))
    (hfiles : s'.files = s.files.setImage handle.node next.image)
    (hsettles : s.Settles s' name { handle with cursor := next.cursor } (some stream) now rest)
    (hbegins : request.begins = false) : Effect path s request s' (result.reply handle.path) := by
  refine .acted (.lent hloans) hact hfiles hsettles ?_ ?_
  · intro hfree
    cases hfree
  · intro hbegin
    rw [hbegins] at hbegin
    cases hbegin

theorem effect_put (chunk : Bytes) : Effect path s (.put chunk) (s.put chunk).1 (s.answer path (.put chunk)) := by
  simp only [answer, Session.put]
  rcases hloans : s.loans with _ | ⟨⟨name, handle, writer | reader⟩, rest⟩
  · exact .unknown (event?_eq_none rfl (by rw [writing, hloans]; rfl))
  · have hfiles : s.files = s.files.setImage handle.node (handle.ring s.files).image :=
      (FileSystem.setImage_image s.files handle.node).symm
    dsimp only
    rcases hput : writer.put (handle.ring s.files) chunk with stop | ⟨r, next⟩
    · have hact : Request.act (handle.ring s.files) (.put chunk) (some (.writing writer))
          = some (handle.ring s.files, some (.writing writer), .error stop) := by
        simp only [Request.act, hput]
      have hsettles := settles_keep s s.files name handle (.writing writer) (.writing writer) rest
      rw [← hloans] at hsettles
      exact effect_lent hloans hact hfiles hsettles rfl
    · have hact : Request.act (handle.ring s.files) (.put chunk) (some (.writing writer))
          = some (r, some (.writing next), .ok .done) := by
        simp only [Request.act, hput]
      have hsettles := settles_keep s (s.files.setImage handle.node r.image) name { handle with cursor := r.cursor }
        (.writing writer) (.writing next) rest
      exact effect_lent hloans hact rfl hsettles rfl
  · exact .unknown (event?_eq_none rfl (by rw [writing, hloans]; rfl))

theorem effect_take (length : Nat) : Effect path s (.take length) (s.take length).1 (s.answer path (.take length)) := by
  simp only [answer, Session.take]
  rcases hloans : s.loans with _ | ⟨⟨name, handle, writer | reader⟩, rest⟩
  · exact .unknown rfl
  · exact .unknown rfl
  · have hfiles : s.files = s.files.setImage handle.node (handle.ring s.files).image :=
      (FileSystem.setImage_image s.files handle.node).symm
    dsimp only
    rcases htake : reader.take (handle.ring s.files) length with ⟨delivered, stop | next⟩
    · have hact : Request.act (handle.ring s.files) (.take length) (some (.reading reader))
          = some (handle.ring s.files, some (.reading reader), .error stop) := by
        simp only [Request.act, htake]
      have hsettles := settles_keep s s.files name handle (.reading reader) (.reading reader) rest
      rw [← hloans] at hsettles
      exact effect_lent hloans hact hfiles hsettles rfl
    · have hact : Request.act (handle.ring s.files) (.take length) (some (.reading reader))
          = some (handle.ring s.files, some (.reading next), .ok (.piece delivered)) := by
        simp only [Request.act, htake]
      have hsettles := settles_keep s s.files name handle (.reading reader) (.reading next) rest
      have hacted : Effect path s (.take length)
          { s with loans := { name, handle, stream := .reading next } :: rest } _ :=
        effect_lent hloans hact hfiles hsettles rfl
      exact hacted

/-- an operation of the reader of the latest loan -/
theorem effect_readOn {α : Type} (f : Reader → Ring → Reader × Outcome α) (value : α → Answer)
    (hact : ∀ r reader, request.act r (some (.reading reader))
      = some (r, some (.reading (f reader r).1), (f reader r).2.map value)) (hbegins : request.begins = false)
    (hevent : request.event? s = none) :
    Effect path s request (s.readOn f).1 ((s.readOn f).2.map value) := by
  unfold Session.readOn
  rcases hloans : s.loans with _ | ⟨⟨name, handle, writer | reader⟩, rest⟩
  · exact .unknown hevent
  · exact .unknown hevent
  · have hfiles : s.files = s.files.setImage handle.node (handle.ring s.files).image :=
      (FileSystem.setImage_image s.files handle.node).symm
    have hsettles :=
      settles_keep s s.files name handle (.reading reader) (.reading (f reader (handle.ring s.files)).1) rest
    have hacted : Effect path s request
        { s with loans := { name, handle, stream := .reading (f reader (handle.ring s.files)).1 } :: rest } _ :=
      effect_lent hloans (hact _ _) hfiles hsettles hbegins
    rw [reply_map] at hacted
    exact hacted

theorem finish_eq {stream : Stream} {rest : List Loan} (hloans : s.loans = { name, handle, stream } :: rest) :
    s.finish = match Request.conclude (handle.ring s.files) stream with
      | .error stop => (({ s with loans := rest } : Session).bind name handle, .error (.ofStop handle.path stop))
      | .ok r => (({ s with loans := rest } : Session).save name handle r, .ok ()) := by
  simp only [Session.finish, hloans]
  cases stream <;> rfl

theorem effect_finish : Effect path s .finish s.finish.1 (s.answer path .finish) := by
  rw [answer]
  rcases hloans : s.loans with _ | ⟨⟨name, handle, stream⟩, rest⟩
  · simp only [Session.finish, hloans]
    exact .unknown (event?_eq_none rfl (by rw [writing, hloans]; rfl))
  · have hfiles : s.files = s.files.setImage handle.node (handle.ring s.files).image :=
      (FileSystem.setImage_image s.files handle.node).symm
    rw [finish_eq hloans]
    rcases hend : Request.conclude (handle.ring s.files) stream with stop | r
    · have hact : Request.act (handle.ring s.files) .finish (some stream)
          = some (handle.ring s.files, none, .error stop) := by
        simp only [Request.act, hend]
      have hacted : Effect path s .finish (({ s with loans := rest } : Session).bind name handle) _ :=
        effect_lent hloans hact hfiles (settles_bind s s.files name handle _ rest) rfl
      exact hacted
    · have hact : Request.act (handle.ring s.files) .finish (some stream) = some (r, none, .ok .done) := by
        simp only [Request.act, hend]
      exact effect_lent hloans hact rfl (settles_bind s _ name _ _ rest) rfl

theorem effect_leave : Effect path s .leave s.leave (s.answer path .leave) := by
  simp only [answer, Session.leave]
  rcases hloans : s.loans with _ | ⟨⟨name, handle, stream⟩, rest⟩
  · exact .idle (.inl rfl) (event?_eq_none rfl (by rw [writing, hloans]; rfl))
  · have hfiles : s.files = s.files.setImage handle.node (handle.ring s.files).image :=
      (FileSystem.setImage_image s.files handle.node).symm
    have hact : Request.act (handle.ring s.files) .leave (some stream) = some (handle.ring s.files, none, .ok .done) :=
      rfl
    have hacted : Effect path s .leave (({ s with loans := rest } : Session).bind name handle) _ :=
      effect_lent hloans hact hfiles (settles_bind s s.files name handle _ rest) rfl
    exact hacted

/-- **All that a request can do.** -/
theorem effect (path : Path) (s : Session) (request : Request) :
    Effect path s request (s.serve path request).1 (s.answer path request) := by
  cases request with
  | openRing name access =>
    simp only [serve, answer, Session.openRing]
    cases hopen : Handle.openRing s.files path access with
    | error stop => exact .unopened hopen
    | ok handle => exact .opened hopen
  | close name =>
    simp only [serve, answer, Session.close]
    cases hfind : s.find? name with
    | none => exact .unknown rfl
    | some handle => exact .closed hfind
  | rewind name =>
    exact effect_change (fun r => (r.rewind, .ok ())) (fun _ => .done) rfl (fun _ => rfl)
      (absurd · Bool.false_ne_true) fun _ => rfl
  | record name =>
    exact effect_change (fun r => r.after r.record) .record rfl (fun _ => rfl) (absurd · Bool.false_ne_true) fun _ =>
      rfl
  | read name buffer => exact effect_read name buffer
  | append name payload => exact effect_append name payload
  | startWrite name total => exact effect_startWrite name total
  | startRead name => exact effect_startRead name
  | turn index =>
    simp only [serve, answer, Session.turn]
    cases hloan : s.loans[index]? with
    | none => exact .idle (.inr ⟨index, rfl⟩) rfl
    | some loan => exact .turned hloan
  | put chunk => exact effect_put chunk
  | take length => exact effect_take length
  | takeExact length => exact effect_readOn (fun reader r => reader.takeExact r length) .exact (fun _ _ => rfl) rfl rfl
  | takeAll => exact effect_readOn Reader.takeAll .piece (fun _ _ => rfl) rfl rfl
  | finish => exact effect_finish
  | leave => exact effect_leave

end Effect

/-! ## One file -/

section Based

variable {s s' : Session} {path : Path} {node capacity : Nat} {name : String} {handle changed : Handle}
  {was now : Option Stream} {rest : List Loan} {image : Image}

/-- the handle of a request is on the file, and the loans beside it were there -/
theorem Owner.based (h : s.Owner name handle was rest) (hbased : s.Based path node capacity) :
    handle.At path node capacity ∧ ∀ loan ∈ rest, loan ∈ s.loans := by
  cases h with
  | free hfind => exact ⟨hbased.handles _ (find?_mem hfind), fun _ hloan => hloan⟩
  | lent hloans =>
    rw [hloans]
    exact ⟨hbased.loans _ (hloans ▸ List.mem_cons_self), fun _ hloan => List.mem_cons_of_mem _ hloan⟩

/-- the loans afterwards are those beside the handle and the one to which it is lent -/
theorem Settles.mem_loans (h : s.Settles s' name changed was now rest) {loan : Loan} (hloan : loan ∈ s'.loans) :
    (∃ stream, now = some stream ∧ loan = { name, handle := changed, stream }) ∨ loan ∈ rest := by
  rw [h.loans] at hloan
  cases now with
  | none => exact Or.inr hloan
  | some stream =>
    rcases List.mem_cons.1 hloan with rfl | hrest
    · exact Or.inl ⟨stream, rfl, rfl⟩
    · exact Or.inr hrest

/-- every handle stays on the file -/
theorem Based.settles (h : s.Based path node capacity) (howner : s.Owner name handle was rest)
    (hsettles : s.Settles s' name changed was now rest) (hfiles : s'.files = s.files.setImage node image)
    (hchanged : changed.At path node capacity) : s'.Based path node capacity where
  lookup := by
    rw [hfiles, FileSystem.lookup_setImage]
    exact h.lookup
  node_lt := by
    rw [hfiles, FileSystem.size_setImage]
    exact h.node_lt
  handles entry hentry := by
    rcases hsettles.handles entry hentry with rfl | hold
    · exact hchanged
    · exact h.handles entry hold
  loans loan hloan := by
    rcases hsettles.mem_loans hloan with ⟨stream, -, rfl⟩ | hrest
    · exact hchanged
    · exact h.loans loan ((howner.based h).2 loan hrest)

end Based

end CircularLog.Session
