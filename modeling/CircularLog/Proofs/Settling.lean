/-
What a request leaves, as a function of what it does to the ring of its handle. `Session.effect` says all that a request
can do; here it is said which of that it does, so that two sessions can be followed side by side.

- `Session.settled`: the session when a handle has acted.
- `Session.serve_of_find`, `Session.serve_of_loan`: the handle of a request acts, and the caller is told what it comes
  to.
- `Session.serve_unknown`, `Session.serve_reader`, `Session.serve_idle`, `Session.serve_unlike`: a request that is for
  no handle, or not for this one.
-/
import CircularLog.Proofs.Streaming

namespace CircularLog.Session

/-- the session when a handle, free or lent to `was`, has become this one and sees this ring; it is lent to `now`, or
free -/
def settled (s : Session) (name : String) (handle : Handle) (was : Option Stream) (rest : List Loan) (r : Ring)
    (now : Option Stream) : Session :=
  match was, now with
  | _, none => ({ s with loans := rest } : Session).save name handle r
  | none, some stream =>
    (s.save name handle r).lend { name, handle := { handle with cursor := r.cursor }, stream }
  | some _, some stream =>
    { s with
      files := s.files.setImage handle.node r.image
      loans := { name, handle := { handle with cursor := r.cursor }, stream } :: rest }

/-- a request that looks whether there is a record to read in pieces -/
def Request.peeks : Request → Bool
  | .startRead _ => true
  | _ => false

/-- a request that is for a handle or for a loan, as opposed to the table of names or the order of the loans -/
def Request.addresses : Request → Bool
  | .openRing _ _ | .close _ | .turn _ => false
  | _ => true

section Settled

variable {s : Session} (path : Path) {request : Request} {name : String} {handle : Handle} {was now : Option Stream}
  {rest : List Loan} {next : Ring} {result : Outcome Answer} {stream : Stream}

theorem appender_eq (hfind : s.find? name = some handle) (haccess : handle.access = .append) :
    s.appender name = .ok handle := by
  simp only [appender, hfind, if_pos haccess]

/-- a ring that is saved as it was -/
theorem save_ring (s : Session) (name : String) (handle : Handle) :
    s.save name handle (handle.ring s.files) = s.bind name handle := by
  have hfiles : s.files.setImage handle.node (handle.ring s.files).image = s.files :=
    FileSystem.setImage_image s.files handle.node
  simp only [save, Ring.save, hfiles]
  rfl

theorem lend_bind (s : Session) (name : String) (handle : Handle) (stream : Stream) :
    (s.bind name handle).lend { name, handle, stream } = s.lend { name, handle, stream } := by
  simp only [lend, bind, release, List.filter_cons, bne_self_eq_false, Bool.false_eq_true, if_false, List.filter_filter,
    Bool.and_self]

/-- a handle stays lent out, and its ring stays as it was -/
theorem settled_ring (s : Session) (name : String) (handle : Handle) (stream other : Stream) (rest : List Loan) :
    s.settled name handle (some stream) rest (handle.ring s.files) (some other)
      = { s with loans := { name, handle, stream := other } :: rest } := by
  have hfiles : s.files.setImage handle.node (handle.ring s.files).image = s.files :=
    FileSystem.setImage_image s.files handle.node
  simp only [settled, hfiles]
  rfl

theorem settled_self (hloans : s.loans = { name, handle, stream } :: rest) :
    s.settled name handle (some stream) rest (handle.ring s.files) (some stream) = s := by
  rw [settled_ring, ← hloans]

/-! ## A free handle -/

theorem serve_of_find (hfind : s.find? name = some handle) (hname : request.name? = some name)
    (haccess : request.begins → handle.access = .append)
    (hact : request.act (handle.ring s.files) none = some (next, now, result)) :
    (s.serve path request).1
        = (if request.peeks ∧ now = none then s else s.settled name handle none s.loans next now)
      ∧ s.answer path request = result.reply handle.path := by
  cases request with
  | rewind other =>
    cases hname
    cases hact
    constructor
    · simp only [serve, Session.rewind, change, hfind, Request.peeks, Bool.false_eq_true, false_and, if_false, settled]
    · simp only [answer, Session.rewind, change, hfind]
      rfl
  | record other =>
    cases hname
    cases hact
    constructor
    · simp only [serve, mute, Session.record, change, hfind, Request.peeks, Bool.false_eq_true, false_and,
        if_false, settled]
    · simp only [answer, Session.record, change, hfind, reply_map]
  | read other buffer =>
    cases hname
    cases hact
    constructor
    · simp only [serve, mute, Session.read, hfind, Request.peeks, Bool.false_eq_true, false_and, if_false, settled]
    · simp only [answer, Session.read, hfind, reply_map]
  | append other payload =>
    cases hname
    cases hact
    have happender := append_of_appender (appender_eq hfind (haccess rfl)) payload
    constructor
    · simp only [serve, happender, Request.peeks, Bool.false_eq_true, false_and, if_false, settled]
    · simp only [answer, happender, reply_map]
  | startWrite other total =>
    cases hname
    have hstart := Reflects.startWrite_eq (appender_eq hfind (haccess rfl)) total
    rw [Request.act] at hact
    rcases hwriter : Writer.start (handle.ring s.files) total with ⟨r, stop | writer⟩
    · rw [hwriter] at hact hstart
      cases hact
      constructor
      · simp only [serve, hstart, Request.peeks, Bool.false_eq_true, false_and, if_false, settled]
      · simp only [answer, hstart]
        rfl
    · rw [hwriter] at hact hstart
      cases hact
      constructor
      · simp only [serve, hstart, Request.peeks, Bool.false_eq_true, false_and, if_false, settled]
      · simp only [answer, hstart]
        rfl
  | startRead other =>
    cases hname
    rw [Request.act] at hact
    rcases hreader : Reader.start (handle.ring s.files) with stop | _ | reader
    · rw [hreader] at hact
      cases hact
      constructor
      · simp only [serve, mute, Session.startRead, hfind, hreader, Request.peeks, and_self, if_true]
      · simp only [answer, Session.startRead, hfind, hreader]
        rfl
    · rw [hreader] at hact
      cases hact
      constructor
      · simp only [serve, mute, Session.startRead, hfind, hreader, Request.peeks, and_self, if_true]
      · simp only [answer, Session.startRead, hfind, hreader]
        rfl
    · rw [hreader] at hact
      cases hact
      constructor
      · have hsaved : s.settled name handle none s.loans (handle.ring s.files) (some (.reading reader))
            = s.lend { name, handle, stream := .reading reader } := by
          rw [settled, save_ring]
          exact lend_bind s name handle _
        simp only [serve, mute, Session.startRead, hfind, hreader, reduceCtorEq, and_false, if_false, hsaved]
      · simp only [answer, Session.startRead, hfind, hreader]
        rfl
  | _ => cases hact

/-! ## A handle that is lent out -/

theorem serve_of_loan (hloans : s.loans = { name, handle, stream } :: rest)
    (hact : request.act (handle.ring s.files) (some stream) = some (next, now, result)) :
    (s.serve path request).1 = s.settled name handle (some stream) rest next now
      ∧ s.answer path request = result.reply handle.path := by
  cases request with
  | put chunk =>
    cases stream with
    | reading reader => cases hact
    | writing writer =>
      rw [Request.act] at hact
      rcases hput : writer.put (handle.ring s.files) chunk with stop | ⟨r, written⟩
      · rw [hput] at hact
        cases hact
        constructor
        · simp only [serve, Session.put, hloans, hput, settled_self hloans]
        · simp only [answer, Session.put, hloans, hput]
          rfl
      · rw [hput] at hact
        cases hact
        simp only [serve, answer, Session.put, hloans, hput]
        exact ⟨rfl, rfl⟩
  | take length =>
    cases stream with
    | writing writer => cases hact
    | reading reader =>
      rw [Request.act] at hact
      rcases htake : reader.take (handle.ring s.files) length with ⟨delivered, stop | taken⟩
      · rw [htake] at hact
        cases hact
        constructor
        · simp only [serve, Session.take, hloans, htake, settled_self hloans]
        · simp only [answer, Session.take, hloans, htake]
          rfl
      · rw [htake] at hact
        cases hact
        constructor
        · simp only [serve, Session.take, hloans, htake, settled_ring]
        · simp only [answer, Session.take, hloans, htake]
          rfl
  | takeExact length =>
    cases stream with
    | writing writer => cases hact
    | reading reader =>
      cases hact
      constructor
      · simp only [serve, mute, readOn, hloans, settled_ring]
      · simp only [answer, readOn, hloans, reply_map]
  | takeAll =>
    cases stream with
    | writing writer => cases hact
    | reading reader =>
      cases hact
      constructor
      · simp only [serve, mute, readOn, hloans, settled_ring]
      · simp only [answer, readOn, hloans, reply_map]
  | finish =>
    rw [Request.act] at hact
    rcases hend : Request.conclude (handle.ring s.files) stream with stop | r
    · rw [hend] at hact
      cases hact
      have hbind := save_ring { s with loans := rest } name handle
      simp only [serve, answer, finish_eq hloans, hend]
      exact ⟨hbind.symm, rfl⟩
    · rw [hend] at hact
      cases hact
      simp only [serve, answer, finish_eq hloans, hend]
      exact ⟨rfl, rfl⟩
  | leave =>
    cases hact
    have hbind := save_ring { s with loans := rest } name handle
    simp only [serve, answer, Session.leave, hloans]
    exact ⟨hbind.symm, rfl⟩
  | _ => cases stream <;> cases hact

/-! ## Requests that change nothing -/

/-- there is no handle under the name -/
theorem serve_unknown (hname : request.name? = some name) (hfind : s.find? name = none) :
    (s.serve path request).1 = s ∧ s.answer path request = .error .unknownHandle := by
  have happender : s.appender name = .error .unknownHandle := by simp only [appender, hfind]
  cases request with
  | close _ | rewind _ | record _ | read _ _ | append _ _ | startWrite _ _ | startRead _ =>
    cases hname
    constructor
    · simp only [serve, mute, Session.close, Session.rewind, Session.record, Session.read, Session.append,
        Session.startWrite, Session.startRead, change, hfind, happender]
    · simp only [answer, Session.close, Session.rewind, Session.record, Session.read, Session.append,
        Session.startWrite, Session.startRead, change, hfind, happender, Except.map]
  | _ => cases hname

/-- the handle under the name may not append -/
theorem serve_reader (hname : request.name? = some name) (hfind : s.find? name = some handle) (hbegins : request.begins)
    (haccess : handle.access ≠ .append) :
    (s.serve path request).1 = s ∧ s.answer path request = .error .notAppender := by
  have happender : s.appender name = .error .notAppender := by simp only [appender, hfind, if_neg haccess]
  cases request with
  | append _ _ | startWrite _ _ =>
    cases hname
    constructor
    · simp only [serve, Session.append, Session.startWrite, happender]
    · simp only [answer, Session.append, Session.startWrite, happender, Except.map]
  | _ => cases hbegins

/-- what a loan is asked for when there is none, or none that can do it -/
def Request.vain : Request → Reply Answer
  | .leave => .ok .done
  | _ => .error .unknownHandle

theorem serve_idle (haddresses : request.addresses) (hname : request.name? = none) (hloans : s.loans = []) :
    (s.serve path request).1 = s ∧ s.answer path request = request.vain := by
  cases request with
  | put _ | take _ | takeExact _ | takeAll | finish =>
    constructor
    · simp only [serve, mute, Session.put, Session.take, readOn, Session.finish, hloans]
    · simp only [answer, Session.put, Session.take, readOn, Session.finish, hloans]
      rfl
  | leave =>
    refine ⟨?_, rfl⟩
    simp only [serve, Session.leave, hloans]
  | openRing _ _ | turn _ => cases haddresses
  | _ => cases hname

theorem serve_unlike (haddresses : request.addresses) (hname : request.name? = none)
    (hloans : s.loans = { name, handle, stream } :: rest)
    (hact : request.act (handle.ring s.files) (some stream) = none) :
    (s.serve path request).1 = s ∧ s.answer path request = request.vain := by
  cases request with
  | put _ =>
    cases stream with
    | reading reader =>
      simp only [serve, answer, Session.put, hloans]
      exact ⟨trivial, rfl⟩
    | writing writer =>
      rw [Request.act] at hact
      split at hact <;> cases hact
  | take _ =>
    cases stream with
    | writing writer =>
      simp only [serve, answer, Session.take, hloans]
      exact ⟨trivial, rfl⟩
    | reading reader =>
      rw [Request.act] at hact
      split at hact <;> cases hact
  | takeExact _ | takeAll =>
    cases stream with
    | writing writer =>
      simp only [serve, mute, answer, readOn, hloans]
      exact ⟨trivial, rfl⟩
    | reading reader => cases hact
  | finish =>
    rw [Request.act] at hact
    split at hact <;> cases hact
  | leave => cases hact
  | openRing _ _ | turn _ => cases haddresses
  | _ => cases hname

end Settled

end CircularLog.Session
