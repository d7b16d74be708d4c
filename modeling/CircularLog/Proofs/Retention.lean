/-
What a ring retains. Records are delivered to a new ring one after another, each all at once or in pieces; some may be
too long for it. Of those that were accepted, a reader gets the longest run of newest ones that leaves a byte free.

- `Session.deliver`: a record that is delivered, by one call or by a stream that is completed.
- `Session.Reflects.deliver`: a delivery does to the queue what one append does.
- `ring_retains_longest_suffix`: what is read after any deliveries.
-/
import CircularLog.Proofs.Refinement

namespace CircularLog

/-- a record that comes all at once, or in these pieces -/
inductive Delivery where
  | whole (payload : Bytes)
  | pieces (chunks : List Bytes)
deriving DecidableEq, Repr

def Delivery.payload : Delivery → Bytes
  | .whole payload => payload
  | .pieces chunks => chunks.flatten

/-- a record is refused only if it is too long -/
def Delivery.verdict (capacity : Nat) (delivery : Delivery) : Outcome Unit :=
  if frameLength delivery.payload.length < capacity then .ok ()
  else refuse (.recordTooLarge capacity delivery.payload.length)

namespace Session

/-- writes one piece after another, up to the first that is refused -/
def putAll : Session → List Bytes → Session × Reply Unit
  | s, [] => (s, .ok ())
  | s, chunk :: rest =>
    match s.put chunk with
    | (s, .error denial) => (s, .error denial)
    | (s, .ok ()) => s.putAll rest

/-- appends a record; one in pieces is begun, written and finished, or abandoned where it is refused -/
def deliver (s : Session) (name : String) : Delivery → Session × Reply Unit
  | .whole payload => s.append name payload
  | .pieces chunks =>
    match s.startWrite name chunks.flatten.length with
    | (s, .error denial) => (s, .error denial)
    | (s, .ok ()) =>
      match s.putAll chunks with
      | (s, .error denial) => (s.leave, .error denial)
      | (s, .ok ()) => s.finish

/-- the session after the deliveries, and the answer to each -/
def deliverAll (name : String) : Session → List Delivery → Session × List (Delivery × Reply Unit)
  | s, [] => (s, [])
  | s, delivery :: rest =>
    let (next, answer) := s.deliver name delivery
    let (last, log) := deliverAll name next rest
    (last, (delivery, answer) :: log)

end Session

/-- the records that were accepted, in their order -/
def accepted (log : List (Delivery × Reply Unit)) : List Bytes :=
  log.filterMap fun (delivery, answer) =>
    match answer with
    | .ok () => some delivery.payload
    | .error _ => none

namespace Session

section Deliver

variable {s : Session} {path : Path} {node capacity total : Nat} {name : String} {handle : Handle}
  {records : List Bytes} {written : Bytes} {rest : List Loan} {writer : Writer}

/-! ## The handle of the deliveries -/

theorem appender_bind (s : Session) (name : String) (h : handle.access = .append) :
    (s.bind name handle).appender name = .ok handle := by
  have hfind : (s.bind name handle).find? name = some handle := by
    simp [Session.find?, Session.bind]
  simp only [appender, hfind, if_pos h]

/-- the name under which a ring was made leads to an appending handle -/
theorem appender_create {fs : FileSystem} (h : Session.create { files := fs } name path capacity = (s, .ok ())) :
    ∃ handle, s.appender name = .ok handle := by
  obtain ⟨made, handle, hcreate, rfl⟩ := create_ok h
  obtain ⟨-, -, -, -, -, hhandle⟩ := Handle.of_create hcreate
  exact ⟨handle, appender_bind _ _ (by rw [hhandle])⟩

theorem appender_append (h : s.appender name = .ok handle) (payload : Bytes) :
    ∃ handle, (s.append name payload).1.appender name = .ok handle := by
  have haccess := access_of_appender h
  simp only [Session.append, h, Session.change, Reflects.appender_ok h]
  exact ⟨_, appender_bind _ _ haccess⟩

/-- a record has been begun, and the handle is lent out to its writer -/
theorem loans_startWrite (h : s.appender name = .ok handle) (hok : (s.startWrite name total).2 = .ok ()) :
    ∃ handle writer rest, (s.startWrite name total).1.loans = { name, handle, stream := .writing writer } :: rest
      ∧ handle.access = .append := by
  have haccess := access_of_appender h
  have hstart := Reflects.startWrite_eq h total
  rcases hwriter : Writer.start (handle.ring s.files) total with ⟨r, stop | writer⟩
  · rw [hwriter] at hstart
    rw [hstart] at hok
    cases hok
  · rw [hwriter] at hstart
    rw [hstart]
    exact ⟨_, writer, _, rfl, haccess⟩

/-- a record has been refused, and the handle keeps its name -/
theorem appender_startWrite {denial : Denial} (h : s.appender name = .ok handle)
    (hrefused : (s.startWrite name total).2 = .error denial) :
    ∃ handle, (s.startWrite name total).1.appender name = .ok handle := by
  have haccess := access_of_appender h
  have hstart := Reflects.startWrite_eq h total
  rcases hwriter : Writer.start (handle.ring s.files) total with ⟨r, stop | writer⟩
  · rw [hwriter] at hstart
    rw [hstart]
    exact ⟨_, appender_bind _ _ haccess⟩
  · rw [hwriter] at hstart
    rw [hstart] at hrefused
    cases hrefused

theorem loans_put (h : s.loans = { name, handle, stream := .writing writer } :: rest)
    (haccess : handle.access = .append) (chunk : Bytes) :
    ∃ handle writer, (s.put chunk).1.loans = { name, handle, stream := .writing writer } :: rest
      ∧ handle.access = .append := by
  simp only [Session.put, h]
  rcases writer.put (handle.ring s.files) chunk with stop | ⟨r, next⟩
  · exact ⟨handle, writer, h, haccess⟩
  · exact ⟨_, next, rfl, haccess⟩

theorem appender_finish (h : s.loans = { name, handle, stream := .writing writer } :: rest)
    (haccess : handle.access = .append) : ∃ handle, s.finish.1.appender name = .ok handle := by
  simp only [Session.finish, h]
  rcases writer.finish (handle.ring s.files) with stop | r
  · exact ⟨_, appender_bind _ _ haccess⟩
  · exact ⟨_, appender_bind _ _ haccess⟩

/-! ## Deliveries -/

/-- pieces that are not longer than the record, all together, are put one behind another -/
theorem Reflects.putAll {chunks : List Bytes}
    (h : s.Reflects path node capacity { records, pending := some (total, written) })
    (hloans : s.loans = { name, handle, stream := .writing writer } :: rest) (haccess : handle.access = .append)
    (hfits : written.length + chunks.flatten.length ≤ total) :
    ∃ next handle writer, s.putAll chunks = (next, .ok ())
      ∧ next.Reflects path node capacity { records, pending := some (total, written ++ chunks.flatten) }
      ∧ next.loans = { name, handle, stream := .writing writer } :: rest ∧ handle.access = .append := by
  induction chunks generalizing s written handle writer with
  | nil =>
    rw [List.flatten_nil, List.append_nil]
    exact ⟨s, handle, writer, rfl, h, hloans, haccess⟩
  | cons chunk chunks ih =>
    rw [List.flatten_cons, List.length_append] at hfits
    have hstep : Queue.step capacity { records, pending := some (total, written) } (.put chunk)
        = ({ records, pending := some (total, written ++ chunk) }, .ok ()) := if_neg (by omega)
    obtain ⟨hreflects, hanswer⟩ := h.put hloans chunk
    obtain ⟨handle', writer', hloans', haccess'⟩ := loans_put hloans haccess chunk
    rw [hstep] at hreflects hanswer
    rcases hput : s.put chunk with ⟨next, answer⟩
    rw [hput] at hreflects hanswer hloans'
    obtain rfl : answer = .ok () := hanswer
    obtain ⟨last, handle'', writer'', hlast, hreflects', hloans'', haccess''⟩ :=
      ih hreflects hloans' haccess' (by rw [List.length_append]; omega)
    rw [List.append_assoc] at hreflects'
    rw [Session.putAll, hput, List.flatten_cons]
    exact ⟨last, handle'', writer'', hlast, hreflects', hloans'', haccess''⟩

/-- a delivery is one append, and is refused only if the record is too long -/
theorem Reflects.deliver (h : s.Reflects path node capacity { records }) (happender : s.appender name = .ok handle)
    (delivery : Delivery) :
    (s.deliver name delivery).1.Reflects path node capacity
        (Queue.step capacity { records } (.append delivery.payload)).1
      ∧ (s.deliver name delivery).2 = (Queue.step capacity { records } (.append delivery.payload)).2.reply path
      ∧ ∃ handle, (s.deliver name delivery).1.appender name = .ok handle := by
  cases delivery with
  | whole payload =>
    obtain ⟨hreflects, hanswer⟩ := h.append rfl happender payload
    exact ⟨hreflects, hanswer, appender_append happender payload⟩
  | pieces chunks =>
    obtain ⟨hbegun, hanswer⟩ := h.startWrite rfl happender chunks.flatten.length
    simp only [Session.deliver, Delivery.payload]
    by_cases hfits : frameLength chunks.flatten.length < capacity
    · simp only [Queue.step, if_pos hfits] at hbegun hanswer ⊢
      have hok : (s.startWrite name chunks.flatten.length).2 = .ok () := hanswer
      obtain ⟨handle₁, writer₁, rest, hloans₁, haccess₁⟩ := loans_startWrite happender hok
      rcases hstart : s.startWrite name chunks.flatten.length with ⟨s₁, answer⟩
      rw [hstart] at hbegun hok hloans₁
      obtain rfl : answer = .ok () := hok
      have hfits' : ([] : Bytes).length + chunks.flatten.length ≤ chunks.flatten.length := by simp
      obtain ⟨s₂, handle₂, writer₂, hput, hwritten, hloans₂, haccess₂⟩ :=
        hbegun.putAll hloans₁ haccess₁ hfits'
      obtain ⟨hdone, hfinish⟩ := hwritten.finish hloans₂
      simp only [Queue.step, List.nil_append, if_pos] at hdone hfinish
      simp only [hput]
      exact ⟨hdone, hfinish, appender_finish hloans₂ haccess₂⟩
    · simp only [Queue.step, if_neg hfits] at hbegun hanswer ⊢
      have hrefused : (s.startWrite name chunks.flatten.length).2
          = .error (.ofStop path (.refused (.recordTooLarge capacity chunks.flatten.length))) := hanswer
      have hkept := appender_startWrite happender hrefused
      rcases hstart : s.startWrite name chunks.flatten.length with ⟨s₁, answer⟩
      rw [hstart] at hbegun hrefused hkept
      obtain rfl : answer = _ := hrefused
      exact ⟨hbegun, rfl, hkept⟩

/-- what is left after the deliveries is the longest suffix of what was accepted before and of what they delivered -/
theorem Reflects.deliverAll {before : List Bytes} (h : s.Reflects path node capacity { records })
    (happender : s.appender name = .ok handle) (hlongest : Queue.Longest capacity records before)
    (deliveries : List Delivery) :
    (s.deliverAll name deliveries).2
        = deliveries.map (fun delivery => (delivery, (delivery.verdict capacity).reply path))
      ∧ ∃ kept, (s.deliverAll name deliveries).1.Reflects path node capacity { records := kept }
        ∧ Queue.Longest capacity kept (before ++ accepted (s.deliverAll name deliveries).2) := by
  induction deliveries generalizing s handle records before with
  | nil =>
    refine ⟨rfl, records, h, ?_⟩
    have hnone : accepted (s.deliverAll name []).2 = [] := rfl
    rw [hnone, List.append_nil]
    exact hlongest
  | cons delivery deliveries ih =>
    obtain ⟨hreflects, hanswer, handle', happender'⟩ := h.deliver happender delivery
    rcases hdeliver : s.deliver name delivery with ⟨next, answer⟩
    rw [hdeliver] at hreflects hanswer happender'
    simp only [Session.deliverAll, hdeliver, List.map_cons]
    by_cases hfits : frameLength delivery.payload.length < capacity
    · simp only [Queue.step, if_pos hfits] at hreflects hanswer
      obtain rfl : answer = .ok () := hanswer
      obtain ⟨hlog, kept, hkept, hlongest'⟩ := ih hreflects happender' (hlongest.append hfits)
      have hverdict : (delivery.verdict capacity).reply path = .ok () := by
        rw [Delivery.verdict, if_pos hfits]
        rfl
      have haccepted : accepted ((delivery, .ok ()) :: (next.deliverAll name deliveries).2)
          = delivery.payload :: accepted (next.deliverAll name deliveries).2 := rfl
      rw [List.append_assoc] at hlongest'
      rw [hverdict, ← hlog, haccepted]
      exact ⟨rfl, kept, hkept, hlongest'⟩
    · simp only [Queue.step, if_neg hfits] at hreflects hanswer
      obtain ⟨hlog, kept, hkept, hlongest'⟩ := ih hreflects happender' hlongest
      have hverdict : (delivery.verdict capacity).reply path = answer := by
        rw [Delivery.verdict, if_neg hfits, hanswer]
      have haccepted : accepted ((delivery, answer) :: (next.deliverAll name deliveries).2)
          = accepted (next.deliverAll name deliveries).2 := by
        rw [hanswer]
        rfl
      rw [hverdict, ← hlog, haccepted]
      exact ⟨rfl, kept, hkept, hlongest'⟩

end Deliver

end Session

/-! ## What is retained -/

/-- a longest suffix of records that each fit has the newest of them at its end -/
theorem Queue.Longest.newest {capacity : Nat} {kept older : List Bytes} {newest : Bytes}
    (h : Longest capacity kept (older ++ [newest])) (hfits : frameLength newest.length < capacity) :
    ∃ front, kept = front ++ [newest] := by
  have hnewest : weight [newest] < capacity := by simpa using hfits
  obtain ⟨front, hfront⟩ := h.longest [newest] (List.suffix_append older [newest]) hnewest
  exact ⟨front, hfront.symm⟩

/-- every record that was accepted fits -/
theorem frameLength_lt_of_accepted {path : Path} {capacity : Nat} {deliveries : List Delivery} {payload : Bytes}
    (h : payload ∈ accepted (deliveries.map fun delivery => (delivery, (delivery.verdict capacity).reply path))) :
    frameLength payload.length < capacity := by
  obtain ⟨⟨delivery, answer⟩, hmem, hpayload⟩ := List.mem_filterMap.1 h
  obtain ⟨delivery', -, hpair⟩ := List.mem_map.1 hmem
  obtain ⟨rfl, rfl⟩ := Prod.mk.inj hpair
  by_contra hlong
  by_cases hfits : frameLength delivery'.payload.length < capacity
  · simp only [Delivery.verdict, if_pos hfits] at hpayload
    obtain rfl : delivery'.payload = payload := Option.some.inj hpayload
    exact hlong hfits
  · simp only [Delivery.verdict, if_neg hfits] at hpayload
    cases hpayload

/-- **The longest suffix is retained.** A delivery to a ring that has just been made is refused only if its record is
too long for the ring; and after all of them a new reader gets the longest suffix of the accepted records whose frames
leave a byte free, the newest one among them. -/
theorem ring_retains_longest_suffix {fs : FileSystem} {path : Path} {capacity : Nat} {name : String} {s : Session}
    (hcreate : Session.create { files := fs } name path capacity = (s, .ok ())) (deliveries : List Delivery) :
    (s.deliverAll name deliveries).2
        = deliveries.map (fun delivery => (delivery, (delivery.verdict capacity).reply path))
      ∧ ∃ kept, Queue.Longest capacity kept (accepted (s.deliverAll name deliveries).2)
        ∧ (∀ older newest, accepted (s.deliverAll name deliveries).2 = older ++ [newest] →
          ∃ front, kept = front ++ [newest])
        ∧ ∃ handle, Handle.openRing (s.deliverAll name deliveries).1.files path .read = .ok handle
          ∧ ∀ count, kept.length < count →
            ((handle.ring (s.deliverAll name deliveries).1.files).drain count).2 = (kept, .exhausted) := by
  obtain ⟨node, hreflects⟩ := Session.reflects_create hcreate
  obtain ⟨handle, happender⟩ := Session.appender_create hcreate
  obtain ⟨hlog, kept, hkept, hlongest⟩ := hreflects.deliverAll happender
    (Queue.Longest.nil hreflects.content.holds.pos) deliveries
  obtain ⟨reader, hopen, hshows⟩ := hkept.shows .read
  rw [List.nil_append] at hlongest
  refine ⟨hlog, kept, hlongest, ?_, reader, hopen, hshows.drain_eq⟩
  intro older newest haccepted
  have hmem : newest ∈ accepted (s.deliverAll name deliveries).2 := by simp [haccepted]
  rw [hlog] at hmem
  exact (haccepted ▸ hlongest).newest (frameLength_lt_of_accepted hmem)

/-- three records for a ring of nine bytes, which has room for the last two of them, and one that is too long -/
def smallDeliveries : List Delivery :=
  [.whole [1, 2, 3], .pieces [[4], [], [5, 6]], .whole [9, 9, 9, 9, 9, 9, 9, 9], .pieces [[7]]]

theorem ring_retains_longest_suffix_smallDeliveries :
    Session.create {} "a" FileSystem.singleName 9 = (smallSession, .ok ())
      ∧ ∃ kept, Queue.Longest 9 kept [[1, 2, 3], [4, 5, 6], [7]]
        ∧ ∃ handle, Handle.openRing (smallSession.deliverAll "a" smallDeliveries).1.files FileSystem.singleName .read
            = .ok handle
          ∧ ∀ count, kept.length < count →
            ((handle.ring (smallSession.deliverAll "a" smallDeliveries).1.files).drain count).2
              = (kept, .exhausted) := by
  have hcreate : Session.create {} "a" FileSystem.singleName 9 = (smallSession, .ok ()) := by decide +kernel
  have haccepted : accepted (smallSession.deliverAll "a" smallDeliveries).2 = [[1, 2, 3], [4, 5, 6], [7]] := by
    decide +kernel
  obtain ⟨-, kept, hlongest, -, hread⟩ := ring_retains_longest_suffix hcreate smallDeliveries
  rw [haccepted] at hlongest
  exact ⟨hcreate, kept, hlongest, hread⟩

end CircularLog
