/-
Any number of handles on a file whose data may be anything, in any order. Nothing that is asked of them takes an offset
off the circle, and what they answer is a value or one of a few refusals; the one way to have no answer is to drop
records without end, which an append alone can do.

- `Session.InRange`: the invariant.
- `Ring.Safe`: what one request does to the ring of its handle, and what it comes to.
- `Session.InRange.effect`: so for any request; `Session.InRange.run`: and for any number of them.
- `requests_stay_in_range`: every run on a file that opens.
-/
import CircularLog.Proofs.Effects
import CircularLog.Proofs.Ranges
import CircularLog.Proofs.Refinement

namespace CircularLog

def Stream.InRange (stream : Stream) (capacity : Nat) : Prop :=
  match stream with
  | .writing writer => writer.InRange capacity
  | .reading reader => reader.InRange capacity

namespace Session

/-! ## What a request can come to -/

/-- whether a request looks for a frame -/
def Request.looks : Request → Bool
  | .record _ | .read _ _ | .startRead _ | .append _ _ | .startWrite _ _ => true
  | _ => false

/-- a request can come to this refusal -/
inductive Request.Refuses (capacity : Nat) : Request → Refusal → Prop
  | corrupt {request : Request} {refusal : Refusal} : request.looks → refusal.Corrupt → Refuses capacity request refusal
  | small {name : String} {buffer : Bytes} {offset payload : Nat} : buffer.length < payload →
      Refuses capacity (.read name buffer) (.bufferTooSmall offset payload)
  | large {name : String} {payload : Bytes} : ¬frameLength payload.length < capacity →
      Refuses capacity (.append name payload) (.recordTooLarge capacity payload.length)
  | large_start {name : String} {total : Nat} : ¬frameLength total < capacity →
      Refuses capacity (.startWrite name total) (.recordTooLarge capacity total)
  | long {chunk : Bytes} {remaining total : Nat} : remaining < chunk.length →
      Refuses capacity (.put chunk) (.chunkTooLong chunk.length remaining total)
  | unfinished {remaining total : Nat} : remaining ≠ 0 → Refuses capacity .finish (.unfinished remaining total)

/-- what a request gives is of the kind that was asked for, and no longer -/
def Answer.Fits (capacity : Nat) (answer : Answer) : Request → Prop
  | .record _ => ∃ payload, answer = .record payload ∧ ∀ bytes ∈ payload, bytes.length < capacity
  | .read _ buffer =>
    ∃ filled length, answer = .filled filled length ∧ filled.length = buffer.length ∧ ∀ n ∈ length, n ≤ buffer.length
  | .startRead _ => ∃ found, answer = .started found
  | .take length => ∃ bytes, answer = .piece bytes ∧ bytes.length ≤ length
  | .takeExact length => ∃ found, answer = .exact found ∧ ∀ bytes ∈ found, bytes.length = length
  | .takeAll => ∃ bytes, answer = .piece bytes ∧ bytes.length < capacity
  | _ => answer = .done

/-- a value that fits, a refusal of the request, or no end -/
def Request.Comes (capacity : Nat) (request : Request) : Outcome Answer → Prop
  | .ok answer => answer.Fits capacity request
  | .error (.refused refusal) => request.Refuses capacity refusal
  | .error (.fault fault) => fault = .endless ∧ request.begins

/-- what the caller of a request can be given -/
inductive Permitted (path : Path) (capacity : Nat) (request : Request) : Reply Answer → Prop
  | value {answer : Answer} : answer.Fits capacity request → Permitted path capacity request (.ok answer)
  | unknown : Permitted path capacity request (.error .unknownHandle)
  | reader : request.begins → Permitted path capacity request (.error .notAppender)
  | refused {refusal : Refusal} : request.Refuses capacity refusal →
      Permitted path capacity request (.error (.refused (refusal.report (some path))))
  | endless : request.begins → Permitted path capacity request (.error (.fault .endless))

end Session

/-! ## The ring of a handle -/

namespace Ring

open Session

/-- the request leaves the ring and the record in pieces in range, and comes to what it can come to -/
structure Safe (r : Ring) (request : Session.Request) (next : Ring) (now : Option Stream) (result : Outcome Answer) :
    Prop where
  sound : next.Sound
  capacity : next.capacity = r.capacity
  stream : ∀ stream ∈ now, stream.InRange r.capacity
  comes : request.Comes r.capacity result

section Safe

variable {r next : Ring} {request : Session.Request} {name : String} {writer : Writer} {reader : Reader}
  {was now : Option Stream} {result : Outcome Answer} {reason : Stop}

/-- nothing happens, and the record in pieces is as it was -/
theorem Safe.stay (h : r.Sound) (hnow : ∀ stream ∈ now, stream.InRange r.capacity)
    (hcomes : request.Comes r.capacity result) : r.Safe request r now result :=
  ⟨h, rfl, hnow, hcomes⟩

theorem comes_of_frameAt (h : r.Sound) {place : Nat} (hplace : place < r.capacity) (hlooks : request.looks)
    (hframe : r.frameAt place r.image.stop = .error reason) : request.Comes r.capacity (.error reason) := by
  obtain ⟨refusal, rfl, hcorrupt⟩ := frameAt_error h.size h.bounded hplace h.stop_lt hframe
  exact .corrupt hlooks hcorrupt

theorem safe_rewind (h : r.Sound) (name : String) : r.Safe (.rewind name) r.rewind none (.ok .done) := by
  -- with the fields in sight, so that the rings are not compared by computing the start offset
  simp only [rewind]
  exact ⟨⟨h.toOpens, h.start_lt⟩, rfl, forall_mem_none, rfl⟩

theorem safe_record (h : r.Sound) (name : String) :
    r.Safe (.record name) (r.after r.record).1 none ((r.after r.record).2.map .record) := by
  rw [record_eq h]
  by_cases hend : r.cursor = r.image.stop
  · rw [if_pos hend]
    exact .stay h forall_mem_none ⟨none, rfl, forall_mem_none⟩
  · rw [if_neg hend]
    cases hframe : r.frameAt r.cursor r.image.stop with
    | error reason => exact .stay h forall_mem_none (comes_of_frameAt h h.cursor_lt rfl hframe)
    | ok frame =>
      refine ⟨h.pass frame, rfl, forall_mem_none, _, rfl, ?_⟩
      rintro _ ⟨⟩
      rw [List.length_take]
      exact Nat.lt_of_le_of_lt (Nat.min_le_left _ _) (payload_le h.toOpens h.cursor_lt h.stop_lt hframe)

theorem safe_read (h : r.Sound) (name : String) (buffer : Bytes) :
    r.Safe (.read name buffer) (r.after (r.read buffer).2).1 none
      ((r.after (r.read buffer).2).2.map (.filled (r.read buffer).1)) := by
  rw [read_eq h]
  by_cases hend : r.cursor = r.image.stop
  · rw [if_pos hend]
    exact .stay h forall_mem_none ⟨buffer, none, rfl, rfl, forall_mem_none⟩
  · rw [if_neg hend]
    cases hframe : r.frameAt r.cursor r.image.stop with
    | error reason => exact .stay h forall_mem_none (comes_of_frameAt h h.cursor_lt rfl hframe)
    | ok frame =>
      by_cases hsmall : buffer.length < frame.payload
      · simp only [if_pos hsmall]
        exact .stay h forall_mem_none (.small hsmall)
      · simp only [if_neg hsmall]
        have hpayload := payload_le h.toOpens h.cursor_lt h.stop_lt hframe
        refine ⟨h.pass frame, rfl, forall_mem_none, _, _, rfl, ?_, ?_⟩
        · rw [fill, List.length_append, List.length_drop, List.length_take, h.length_rotate]
          omega
        · rintro _ ⟨⟩
          exact Nat.le_of_not_lt hsmall

theorem safe_startRead (h : r.Sound) (hact : Session.Request.act r (.startRead name) none = some (next, now, result)) :
    r.Safe (.startRead name) next now result := by
  rw [Session.Request.act, start_eq] at hact
  by_cases hend : r.cursor = r.image.stop
  · simp only [if_pos hend, Option.some.injEq, Prod.mk.injEq] at hact
    obtain ⟨rfl, rfl, rfl⟩ := hact
    exact .stay h forall_mem_none ⟨false, rfl⟩
  · simp only [if_neg hend] at hact
    cases hframe : r.frameAt r.cursor r.image.stop with
    | error reason =>
      simp only [hframe, Option.some.injEq, Prod.mk.injEq] at hact
      obtain ⟨rfl, rfl, rfl⟩ := hact
      exact .stay h forall_mem_none (comes_of_frameAt h h.cursor_lt rfl hframe)
    | ok frame =>
      simp only [hframe, Option.some.injEq, Prod.mk.injEq] at hact
      obtain ⟨rfl, rfl, rfl⟩ := hact
      refine .stay h ?_ ⟨true, rfl⟩
      rintro _ ⟨⟩
      exact ⟨frameAt_in_range h.toOpens h.cursor_lt h.stop_lt hframe, Nat.zero_le _⟩

/-- there is no room for a record that is appended or begun -/
theorem comes_of_makeRoom (h : r.Sound) {payload : Nat} (hbegins : request.begins) (hlooks : request.looks)
    (hlarge : ¬frameLength payload < r.capacity → request.Refuses r.capacity (.recordTooLarge r.capacity payload))
    (hroom : r.makeRoom payload = (next, .error reason)) : request.Comes r.capacity (.error reason) := by
  rcases makeRoom_cases h payload with ⟨-, hok⟩ | ⟨hlong, hrefused⟩ | hendless | ⟨refusal, hrefused, hcorrupt⟩
  · rw [hroom] at hok
    cases hok
  · obtain rfl : reason = .refused (.recordTooLarge r.capacity payload) := by
      simpa [hroom, refuse] using congrArg Prod.snd hrefused
    exact hlarge hlong
  · rw [hroom] at hendless
    obtain rfl := Except.error.inj hendless
    exact ⟨rfl, hbegins⟩
  · rw [hroom] at hrefused
    obtain rfl := Except.error.inj hrefused
    exact .corrupt hlooks hcorrupt

theorem safe_append (h : r.Sound) (name : String) (payload : Bytes) :
    r.Safe (.append name payload) (r.append payload).1 none ((r.append payload).2.map fun _ => .done) := by
  have hsame := same_makeRoom h payload.length
  rw [append_eq h]
  rcases hroom : r.makeRoom payload.length with ⟨r₁, reason | ⟨⟩⟩
  · simp only [hroom] at hsame
    exact ⟨hsame.sound, hsame.capacity, forall_mem_none, comes_of_makeRoom h rfl rfl .large hroom⟩
  · simp only [hroom] at hsame
    have hfits := hsame.capacity ▸ fits_of_makeRoom hroom
    exact ⟨⟨opens_placed hsame.sound.toOpens hfits, hsame.sound.cursor_lt⟩, hsame.capacity, forall_mem_none, rfl⟩

theorem safe_startWrite (h : r.Sound) {total : Nat}
    (hact : Session.Request.act r (.startWrite name total) none = some (next, now, result)) :
    r.Safe (.startWrite name total) next now result := by
  have hsame := same_makeRoom h total
  rw [Session.Request.act, Writer.start_eq h] at hact
  rcases hroom : r.makeRoom total with ⟨r₁, reason | ⟨⟩⟩
  · simp only [hroom, Option.some.injEq, Prod.mk.injEq] at hact hsame
    obtain ⟨rfl, rfl, rfl⟩ := hact
    exact ⟨hsame.sound, hsame.capacity, forall_mem_none, comes_of_makeRoom h rfl rfl .large_start hroom⟩
  · simp only [hroom, Option.some.injEq, Prod.mk.injEq] at hact hsame
    obtain ⟨rfl, rfl, rfl⟩ := hact
    have hfits := hsame.capacity ▸ fits_of_makeRoom hroom
    refine ⟨hsame.sound, hsame.capacity, ?_, rfl⟩
    rintro _ ⟨⟩
    exact hsame.capacity ▸ Writer.behind_in_range hsame.sound.toOpens hfits []

theorem safe_put (h : r.Sound) (hwriter : writer.InRange r.capacity) {chunk : Bytes}
    (hact : Session.Request.act r (.put chunk) (some (.writing writer)) = some (next, now, result)) :
    r.Safe (.put chunk) next now result := by
  rw [Session.Request.act, Writer.put_eq h.toOpens hwriter] at hact
  by_cases hlong : writer.remaining < chunk.length
  · simp only [if_pos hlong, refuse, Option.some.injEq, Prod.mk.injEq] at hact
    obtain ⟨rfl, rfl, rfl⟩ := hact
    refine .stay h ?_ (.long hlong)
    rintro _ ⟨⟩
    exact hwriter
  · simp only [if_neg hlong, Option.some.injEq, Prod.mk.injEq] at hact
    obtain ⟨rfl, rfl, rfl⟩ := hact
    have hparts := frameLength_eq writer.total
    have hfits := hwriter.fits
    have hremaining := hwriter.remaining_le
    refine ⟨⟨h.toOpens.scatter writer.next (by omega), h.cursor_lt⟩, rfl, ?_, rfl⟩
    rintro _ ⟨⟩
    exact ⟨hwriter.offset_lt, Nat.mod_lt _ h.pos, Nat.le_trans (Nat.sub_le _ _) hremaining, hfits⟩

theorem safe_take (h : r.Sound) (hreader : reader.InRange r.capacity) {length : Nat}
    (hact : Session.Request.act r (.take length) (some (.reading reader)) = some (next, now, result)) :
    r.Safe (.take length) next now result := by
  rw [Session.Request.act, Reader.take_eq h.toOpens hreader] at hact
  simp only [Option.some.injEq, Prod.mk.injEq] at hact
  obtain ⟨rfl, rfl, rfl⟩ := hact
  refine .stay h ?_ ⟨_, rfl, ?_⟩
  · rintro _ ⟨⟩
    exact hreader.take length
  · rw [Reader.length_ahead h.toOpens hreader (Nat.min_le_left _ _)]
    exact Nat.min_le_right _ _

theorem safe_takeExact (h : r.Sound) (hreader : reader.InRange r.capacity) (length : Nat) :
    r.Safe (.takeExact length) r (some (.reading (reader.takeExact r length).1))
      ((reader.takeExact r length).2.map .exact) := by
  rw [Reader.takeExact_eq h.toOpens hreader]
  refine .stay h ?_ ⟨_, rfl, ?_⟩
  · rintro _ ⟨⟩
    exact hreader.take length
  · by_cases hshort : reader.remaining < length
    · rw [if_pos hshort]
      exact forall_mem_none
    · rw [if_neg hshort]
      rintro _ ⟨⟩
      exact Reader.length_ahead h.toOpens hreader (Nat.le_of_not_lt hshort)

theorem safe_takeAll (h : r.Sound) (hreader : reader.InRange r.capacity) :
    r.Safe .takeAll r (some (.reading (reader.takeAll r).1)) ((reader.takeAll r).2.map .piece) := by
  rw [Reader.takeAll_eq h.toOpens hreader]
  refine .stay h ?_ ⟨_, rfl, ?_⟩
  · rintro _ ⟨⟩
    exact ⟨hreader.frame, Nat.le_refl _⟩
  · rw [Reader.length_ahead h.toOpens hreader (Nat.le_refl _)]
    exact Nat.lt_of_le_of_lt (Nat.sub_le _ _) hreader.frame.payload_lt

theorem safe_finish (h : r.Sound) {stream : Stream} (hstream : stream.InRange r.capacity)
    (hact : Session.Request.act r .finish (some stream) = some (next, now, result)) :
    r.Safe .finish next now result := by
  rw [Session.Request.act] at hact
  cases stream with
  | writing writer =>
    rw [Session.Request.conclude, Writer.finish_eq h.toOpens hstream] at hact
    by_cases hmissing : writer.remaining ≠ 0
    · simp only [if_pos hmissing, refuse, Option.some.injEq, Prod.mk.injEq] at hact
      obtain ⟨rfl, rfl, rfl⟩ := hact
      exact .stay h forall_mem_none (.unfinished hmissing)
    · simp only [if_neg hmissing, Option.some.injEq, Prod.mk.injEq] at hact
      obtain ⟨rfl, rfl, rfl⟩ := hact
      have hparts := frameLength_eq writer.total
      have hfits : frameLength writer.total < r.capacity := hstream.fits
      have hheader : (Varint.encode writer.total).length = Varint.size writer.total :=
        Varint.length_encode (h.lt_bound (by omega))
      have hprefixed := h.toOpens.scatter writer.offset (show (Varint.encode writer.total).length ≤ r.capacity by omega)
      rw [hheader] at hprefixed
      exact ⟨⟨hprefixed.setStop (Nat.mod_lt _ h.pos), h.cursor_lt⟩, rfl, forall_mem_none, rfl⟩
  | reading reader =>
    rw [Session.Request.conclude, Reader.finish_eq h.toOpens hstream] at hact
    simp only [Option.some.injEq, Prod.mk.injEq] at hact
    obtain ⟨rfl, rfl, rfl⟩ := hact
    exact ⟨⟨h.toOpens, Nat.mod_lt _ h.pos⟩, rfl, forall_mem_none, rfl⟩

/-- **Every request is safe.** -/
theorem safe_of_act (h : r.Sound) (hwas : ∀ stream ∈ was, stream.InRange r.capacity)
    (hact : request.act r was = some (next, now, result)) : r.Safe request next now result := by
  rcases was with _ | writer | reader
  · cases request with
    | rewind name =>
      cases hact
      exact safe_rewind h name
    | record name =>
      cases hact
      exact safe_record h name
    | read name buffer =>
      cases hact
      exact safe_read h name buffer
    | append name payload =>
      cases hact
      exact safe_append h name payload
    | startWrite name total => exact safe_startWrite h hact
    | startRead name => exact safe_startRead h hact
    | _ => cases hact
  · have hwriter : writer.InRange r.capacity := hwas _ rfl
    cases request with
    | put chunk => exact safe_put h hwriter hact
    | finish => exact safe_finish h (hwas _ rfl) hact
    | leave =>
      cases hact
      exact .stay h forall_mem_none rfl
    | _ => cases hact
  · have hreader : reader.InRange r.capacity := hwas _ rfl
    cases request with
    | take length => exact safe_take h hreader hact
    | takeExact length =>
      cases hact
      exact safe_takeExact h hreader length
    | takeAll =>
      cases hact
      exact safe_takeAll h hreader
    | finish => exact safe_finish h (hwas _ rfl) hact
    | leave =>
      cases hact
      exact .stay h forall_mem_none rfl
    | _ => cases hact

end Safe

end Ring

/-! ## All handles on the file -/

namespace Session

/-- the handles are on a file that opens, and the records in pieces are in range -/
structure InRange (s : Session) (path : Path) (node capacity : Nat) : Prop extends s.Based path node capacity where
  opens : (s.files.image node).Opens capacity
  streams : ∀ loan ∈ s.loans, loan.stream.InRange capacity

namespace InRange

section InRange

variable {s s' : Session} {path : Path} {node capacity : Nat} {name : String} {handle : Handle} {was : Option Stream}
  {rest : List Loan} {request : Request} {reply : Reply Answer}

/-- what the handle of a request sees -/
theorem sound (h : s.InRange path node capacity) (hhandle : handle.At path node capacity) :
    (handle.ring s.files).Sound := by
  rw [Reflects.ring_eq hhandle]
  exact ⟨h.opens, hhandle.cursor_lt⟩

theorem stream (h : s.InRange path node capacity) (howner : s.Owner name handle was rest) :
    ∀ stream ∈ was, stream.InRange capacity := by
  cases howner with
  | free hfind => exact forall_mem_none
  | lent hloans =>
    rintro _ ⟨⟩
    exact h.streams _ (hloans ▸ List.mem_cons_self)

/-- the handle of a request is where it was, with its cursor on the circle -/
theorem at_next (h : s.InRange path node capacity) (howner : s.Owner name handle was rest) {now : Option Stream}
    {next : Ring} {result : Outcome Answer} (hact : request.act (handle.ring s.files) was = some (next, now, result)) :
    ({ handle with cursor := next.cursor } : Handle).At path node capacity := by
  obtain ⟨hhandle, -⟩ := howner.based h.toBased
  have hcapacity : (handle.ring s.files).capacity = capacity := hhandle.capacity_eq
  have hsafe := Ring.safe_of_act (h.sound hhandle) (hcapacity.symm ▸ h.stream howner) hact
  have hcursor := hsafe.sound.cursor_lt
  rw [hsafe.capacity, hcapacity] at hcursor
  exact ⟨hhandle.path_eq, hhandle.node_eq, hhandle.capacity_eq, hcursor⟩

/-- nothing but the handles has changed, or the order of the loans -/
theorem of_files (h : s.InRange path node capacity) (hfiles : s'.files = s.files)
    (hhandles : ∀ entry ∈ s'.handles, entry.2.At path node capacity) (hloans : ∀ loan ∈ s'.loans, loan ∈ s.loans) :
    s'.InRange path node capacity where
  lookup := hfiles ▸ h.lookup
  node_lt := hfiles ▸ h.node_lt
  handles := hhandles
  loans loan hloan := h.loans loan (hloans loan hloan)
  opens := hfiles ▸ h.opens
  streams loan hloan := h.streams loan (hloans loan hloan)

/-- **One request.** The invariant is kept, and the caller is given what there can be. -/
theorem effect (h : s.InRange path node capacity) (heffect : Effect path s request s' reply) :
    s'.InRange path node capacity ∧ Permitted path capacity request reply := by
  cases heffect with
  | unknown _ => exact ⟨h, .unknown⟩
  | reader hbegins _ => exact ⟨h, .reader hbegins⟩
  | idle hidle _ =>
    refine ⟨h, .value ?_⟩
    rcases hidle with rfl | ⟨index, rfl⟩ <;> rfl
  | @opened name access handle hopen =>
    obtain ⟨place, hlookup⟩ := h.lookup
    obtain ⟨found, hfound, hpath, hnode, hcapacity, hcursor⟩ := Handle.openRing_at hlookup h.opens access
    obtain rfl := Except.ok.inj (hfound.symm.trans hopen)
    have hhandle : found.At path node capacity := ⟨hpath, hnode, hcapacity, hcursor.trans_lt h.opens.start_lt⟩
    exact ⟨h.of_files rfl (handles_bind h.handles hhandle) fun _ hloan => hloan, .value rfl⟩
  | @unopened name access stop hopen =>
    obtain ⟨place, hlookup⟩ := h.lookup
    rw [Handle.openRing_eq_ok hlookup h.opens access] at hopen
    cases hopen
  | closed hfind => exact ⟨h.of_files rfl (handles_release h.handles) fun _ hloan => hloan, .value rfl⟩
  | @turned index loan hloan =>
    have hmem : ∀ other ∈ loan :: s.loans.eraseIdx index, other ∈ s.loans :=
      List.forall_mem_cons.2 ⟨List.mem_of_getElem? hloan, fun _ => List.mem_of_mem_eraseIdx⟩
    exact ⟨h.of_files rfl h.handles hmem, .value rfl⟩
  | @acted _ name handle was now rest next result _ howner hact hfiles hsettles hname hbegins =>
    obtain ⟨hhandle, hrest⟩ := howner.based h.toBased
    have hcapacity : (handle.ring s.files).capacity = capacity := hhandle.capacity_eq
    have hsafe := Ring.safe_of_act (h.sound hhandle) (hcapacity.symm ▸ h.stream howner) hact
    obtain ⟨hsound, hnext, hstream, hcomes⟩ := hsafe
    rw [hcapacity] at hnext hstream hcomes
    have hopens := hsound.toOpens
    rw [hnext] at hopens
    rw [hhandle.node_eq] at hfiles
    have hbased := h.toBased.settles howner hsettles hfiles (h.at_next howner hact)
    refine ⟨⟨hbased, ?_, ?_⟩, ?_⟩
    · rw [hfiles, FileSystem.image_setImage h.node_lt]
      exact hopens
    · intro loan hloan
      rcases hsettles.mem_loans hloan with ⟨stream, hnow, rfl⟩ | hold
      · exact hstream stream hnow
      · exact h.streams loan (hrest loan hold)
    · rw [hhandle.path_eq]
      rcases result with ⟨refusal | fault⟩ | answer
      · exact .refused hcomes
      · obtain ⟨rfl, hbegins⟩ := hcomes
        exact .endless hbegins
      · exact .value hcomes

/-- **Any number of requests.** -/
theorem run (h : s.InRange path node capacity) (requests : List Request) :
    (s.run path requests).1.InRange path node capacity := by
  induction requests generalizing s with
  | nil => exact h
  | cons request requests ih => exact ih (h.effect (s.effect path request)).1

end InRange

end InRange

end Session

/-- whoever has the handle can ask what is used and what comes next, and finds no frame that ends out of range -/
structure Handle.InRange (handle : Handle) (fs : FileSystem) (capacity : Nat) : Prop where
  capacity_eq : handle.capacity = capacity
  cursor_lt : handle.cursor < capacity
  usage : ∃ usage, (handle.ring fs).usage = .ok usage ∧ usage.used < capacity ∧ usage.used + usage.available = capacity
  nextSize : ∀ reason, (handle.ring fs).nextSize = .error reason → ∃ refusal, reason = .refused refusal
    ∧ refusal.Corrupt
  frameAt : ∀ offset stop frame, offset < capacity → stop < capacity →
    (handle.ring fs).frameAt offset stop = .ok frame →
    frame.payload < capacity ∧ frame.offset + frame.length < Word.bound

namespace Session

/-- nothing is out of range, whatever is asked next -/
structure Safe (s : Session) (path : Path) (node capacity : Nat) : Prop extends s.InRange path node capacity where
  free : ∀ entry ∈ s.handles, entry.2.InRange s.files capacity
  lent : ∀ loan ∈ s.loans, loan.handle.InRange s.files capacity
  answers : ∀ request, Permitted path capacity request (s.answer path request)
  /-- reading and writing the data goes through this -/
  transfers : ∀ offset length, Region.Within capacity length (Region.locate capacity offset length)

namespace InRange

section Safe

variable {s : Session} {path : Path} {node capacity : Nat} {handle : Handle}

theorem handle_in_range (h : s.InRange path node capacity) (hhandle : handle.At path node capacity) :
    handle.InRange s.files capacity := by
  have hsound := h.sound hhandle
  have hcapacity : (handle.ring s.files).capacity = capacity := hhandle.capacity_eq
  subst hcapacity
  refine ⟨hhandle.capacity_eq, hhandle.cursor_lt, Ring.usage_eq_ok hsound.toOpens,
    fun _ => Ring.nextSize_error hsound, ?_⟩
  intro offset stop frame hoffset hstop hframe
  have hrange := Ring.frameAt_in_range hsound.toOpens hoffset hstop hframe
  exact ⟨hrange.payload_lt, Ring.end_lt_bound hsound.toOpens hrange⟩

theorem safe (h : s.InRange path node capacity) : s.Safe path node capacity where
  toInRange := h
  free entry hentry := h.handle_in_range (h.handles entry hentry)
  lent loan hloan := h.handle_in_range (h.loans loan hloan)
  answers request := (h.effect (s.effect path request)).2
  transfers := h.opens.locate_within

end Safe

end InRange

end Session

/-! ## Every file -/

theorem Session.inRange_open {fs : FileSystem} {path : Path} {access : Access} {handle : Handle}
    (hopen : Handle.openRing fs path access = .ok handle) (hfile : (fs.image handle.node).size ≤ Image.maxSize) :
    ({ files := fs } : Session).InRange path handle.node handle.capacity := by
  obtain ⟨hlookup, hopens, -⟩ := Handle.of_openRing hopen hfile
  have hbased : ({ files := fs } : Session).Based path handle.node handle.capacity :=
    ⟨hlookup, FileSystem.node_lt_of_opens hopens, List.forall_mem_nil _, List.forall_mem_nil _⟩
  exact ⟨hbased, hopens, List.forall_mem_nil _⟩

/-- **Nothing goes out of range.** Whatever the data of a file that opens, and whatever is asked of any number of
handles on it, in any order: the offsets and the cursors stay on the circle, and every further request is answered with
a value, with a refusal that it can come to, or not at all if it appends and the records in its way have no end. -/
theorem requests_stay_in_range {fs : FileSystem} {path : Path} {access : Access} {handle : Handle}
    (hopen : Handle.openRing fs path access = .ok handle) (hfile : (fs.image handle.node).size ≤ Image.maxSize)
    (requests : List Session.Request) :
    (Session.run path { files := fs } requests).1.Safe path handle.node handle.capacity :=
  ((Session.inRange_open hopen hfile).run requests).safe

/-- two handles write at once, and a third reads what they write over -/
def overlappingRequests : List Session.Request :=
  [.openRing "a" .append, .openRing "b" .append, .openRing "r" .read, .startRead "r", .startWrite "a" 3, .put [1, 2],
    .startWrite "b" 3, .put [3, 4, 5], .turn 2, .take 1]

theorem requests_stay_in_range_overlapping :
    Handle.openRing overlongFile FileSystem.singleName .append = .ok singleHandle
      ∧ (overlongFile.image singleHandle.node).size ≤ Image.maxSize
      ∧ (Session.run FileSystem.singleName { files := overlongFile } overlappingRequests).1.loans.length = 3
      ∧ (Session.run FileSystem.singleName { files := overlongFile } overlappingRequests).1.Safe
        FileSystem.singleName 0 8 := by
  have hopen : Handle.openRing overlongFile FileSystem.singleName .append = .ok singleHandle := by decide
  have hfile : (overlongFile.image singleHandle.node).size ≤ Image.maxSize := by decide
  exact ⟨hopen, hfile, by decide +kernel, requests_stay_in_range hopen hfile overlappingRequests⟩

end CircularLog
