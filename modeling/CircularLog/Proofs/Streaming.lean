/-
A record in pieces and a record at once. The pieces go to the circle first and the prefix last, from a place that is
already taken modulo the capacity; a record at once has its prefix first. What lies on the circle in the end is the
same, byte by byte, whatever was there before.

- `Ring.Fed`: the file while a record arrives; `Ring.Fed.put`, `Ring.Fed.finish`: a piece more, and the end.
- `Session.Effect.quiet`: a request that asks nothing of the queue changes no byte and no record that is being written.
- `Session.Streams`: the session while a record arrives.
- `stream_append_eq_append`: every record in pieces, with any reading in between.
-/
import CircularLog.Proofs.Safety

namespace CircularLog

/-! ## The file while a record arrives -/

/-- the image is the ring's but for these bytes, which lie behind the newest record and a gap for a prefix -/
structure Ring.Fed (r : Ring) (total : Nat) (written : Bytes) (image : Image) : Prop where
  size : image.size = r.image.size
  head : image.head = r.image.head
  laid : image.circle.rotate r.image.stop = lay (r.image.circle.rotate r.image.stop) (Varint.size total) written
  written_le : written.length ≤ total

namespace Ring

section Fed

variable {r : Ring} {total : Nat} {written chunk payload : Bytes} {image : Image}

theorem Fed.nil (r : Ring) (total : Nat) : r.Fed total [] r.image := ⟨rfl, rfl, (lay_nil _ _).symm, Nat.zero_le _⟩

theorem Fed.opens (h : r.Fed total written image) (hopens : r.image.Opens r.capacity) : image.Opens r.capacity :=
  hopens.of_head h.size h.head

theorem Fed.put_too_long (h : r.Fed total written image) (hopens : r.image.Opens r.capacity)
    (hfits : frameLength total < r.capacity) (hlong : total - written.length < chunk.length) :
    (Writer.behind r total written).put { r with image } chunk
      = refuse (.chunkTooLong chunk.length (total - written.length) total) := by
  rw [Writer.put_eq (r := { r with image }) (h.opens hopens) (Writer.behind_in_range hopens hfits written)]
  exact if_pos hlong

/-- a piece goes behind the pieces before it -/
theorem Fed.put (h : r.Fed total written image) (hopens : r.image.Opens r.capacity)
    (hfits : frameLength total < r.capacity) (hshort : ¬total - written.length < chunk.length) :
    ∃ next, (Writer.behind r total written).put { r with image } chunk
        = .ok ({ r with image := next }, Writer.behind r total (written ++ chunk))
      ∧ r.Fed total (written ++ chunk) next := by
  have hparts := frameLength_eq total
  have hsize := (h.opens hopens).size
  have hwritten := h.written_le
  have hplace : (Writer.behind r total written).next % r.capacity
      = (r.image.stop + (Varint.size total + written.length)) % r.capacity := by
    rw [Writer.behind, Nat.mod_mod, Nat.add_assoc]
  obtain ⟨hsize', hhead, -⟩ := Region.scatter_stretch (Writer.behind r total written).next hsize hopens.pos
    (show chunk.length ≤ r.capacity by omega)
  refine ⟨_, ?_, hsize'.trans h.size, hhead.trans h.head, ?_, by rw [List.length_append]; omega⟩
  · rw [Writer.put_eq (r := { r with image }) (h.opens hopens) (Writer.behind_in_range hopens hfits written)]
    simp only [Writer.behind, if_neg hshort, List.length_append, Nat.mod_add_mod, Nat.add_assoc, Nat.sub_sub]
  · rw [Region.circle_scatter hsize hopens.pos hplace (by omega), h.laid]
    apply lay_behind
    rw [hopens.length_rotate]
    omega

/-- a record at once: its prefix and its bytes are laid behind the newest record, whatever was there -/
theorem scatter_frame (hopens : r.image.Opens r.capacity) (hfits : frameLength payload.length < r.capacity) :
    ∃ laid : Image, laid.size = r.image.size ∧ laid.head = r.image.head
      ∧ laid.circle.rotate r.image.stop
        = lay (r.image.circle.rotate r.image.stop) 0 (Varint.encode payload.length ++ payload)
      ∧ r.placed payload = laid.setStop ((r.image.stop + frameLength payload.length) % r.capacity) := by
  have hparts := frameLength_eq payload.length
  have hheader : (Varint.encode payload.length).length = Varint.size payload.length :=
    Varint.length_encode (hopens.lt_bound (by omega))
  have hlength := hopens.length_rotate r.image.stop
  obtain ⟨hsize₁, hhead₁, hcircle₁⟩ := Region.scatter_stretch r.image.stop hopens.size hopens.pos
    (show (Varint.encode payload.length).length ≤ r.capacity by omega)
  obtain ⟨hsize₂, hhead₂, -⟩ := Region.scatter_stretch (r.image.stop + (Varint.encode payload.length).length)
    (hsize₁.trans hopens.size) hopens.pos (show payload.length ≤ r.capacity by omega)
  have hcircle₂ := Region.circle_scatter (hsize₁.trans hopens.size) hopens.pos
    (show (r.image.stop + (Varint.encode payload.length).length) % r.capacity = _ from rfl)
    (show (Varint.encode payload.length).length + payload.length ≤ r.capacity by omega)
  have hbehind : lay (lay (r.image.circle.rotate r.image.stop) 0 (Varint.encode payload.length))
      (0 + (Varint.encode payload.length).length) payload
      = lay (r.image.circle.rotate r.image.stop) 0 (Varint.encode payload.length ++ payload) := lay_behind (by omega)
  rw [Nat.zero_add] at hbehind
  rw [hcircle₁, hbehind] at hcircle₂
  refine ⟨_, hsize₂.trans hsize₁, hhead₂.trans hhead₁, hcircle₂, ?_⟩
  rw [placed, hheader]

/-- the prefix completes what a record at once leaves -/
theorem Fed.finish (h : r.Fed payload.length payload image) (hopens : r.image.Opens r.capacity)
    (hfits : frameLength payload.length < r.capacity) :
    (Writer.behind r payload.length payload).finish { r with image } = .ok { r with image := r.placed payload } := by
  have hparts := frameLength_eq payload.length
  have hheader : (Varint.encode payload.length).length = Varint.size payload.length :=
    Varint.length_encode (hopens.lt_bound (by omega))
  have hdone : ¬(Writer.behind r payload.length payload).remaining ≠ 0 := by
    simp only [Writer.behind]
    omega
  have hlength := hopens.length_rotate r.image.stop
  have hlaid := h.laid
  rw [← hheader] at hlaid
  -- the prefix is laid in front of the bytes
  obtain ⟨-, hhead, hcircle⟩ := Region.scatter_stretch r.image.stop (h.opens hopens).size hopens.pos
    (show (Varint.encode payload.length).length ≤ r.capacity by omega)
  rw [hlaid, lay_front (by omega), hheader] at hcircle
  rw [h.head, hheader] at hhead
  obtain ⟨laid, -, hhead', hcircle', hplaced⟩ := scatter_frame hopens hfits
  have hsame := Image.ext_head_circle (hhead.trans hhead'.symm)
    (List.rotate_injective r.image.stop (hcircle.trans hcircle'.symm))
  rw [Writer.finish_eq (r := { r with image }) (h.opens hopens) (Writer.behind_in_range hopens hfits payload),
    if_neg hdone, hplaced, ← hsame]
  simp only [Writer.behind]

end Fed

end Ring

/-! ## Requests that only read -/

/-- the loan has this name, and a record is being written -/
def Loan.writes (name : String) (loan : Loan) : Bool := loan.name == name && loan.stream.writer?.isSome

namespace Session

section Quiet

variable {s s' : Session} {path : Path} {node capacity : Nat} {name : String} {request : Request} {reply : Reply Answer}
  {r next : Ring} {was now : Option Stream} {result : Outcome Answer} {handle : Handle} {rest : List Loan}

/-- reading leaves the bytes alone, and writes no record in pieces -/
theorem Request.act_quiet (h : r.Sound) (hact : request.act r was = some (next, now, result))
    (hbegins : request.begins = false)
    (hwas : ∀ stream ∈ was, stream.writer? = none) : next.image = r.image ∧ ∀ stream ∈ now, stream.writer? = none := by
  rcases was with _ | writer | reader
  · cases request with
    | rewind name =>
      cases hact
      exact ⟨by simp only [Ring.rewind], forall_mem_none⟩
    | record name =>
      obtain ⟨cursor, -, hkeeps⟩ := Ring.record_keeps h
      cases hact
      rw [hkeeps]
      exact ⟨rfl, forall_mem_none⟩
    | read name buffer =>
      obtain ⟨cursor, -, hkeeps⟩ := Ring.read_keeps h buffer
      cases hact
      rw [hkeeps]
      exact ⟨rfl, forall_mem_none⟩
    | startRead name =>
      rw [Request.act] at hact
      split at hact
      · cases hact
        exact ⟨rfl, forall_mem_none⟩
      · cases hact
        exact ⟨rfl, forall_mem_none⟩
      · cases hact
        refine ⟨rfl, ?_⟩
        rintro _ ⟨⟩
        rfl
    | append name payload => cases hbegins
    | startWrite name total => cases hbegins
    | _ => cases hact
  · cases hwas _ rfl
  · have hreading : ∀ reader : Reader, ∀ stream ∈ some (Stream.reading reader), stream.writer? = none := by
      rintro reader _ ⟨⟩
      rfl
    cases request with
    | take length =>
      rw [Request.act] at hact
      split at hact
      · cases hact
        exact ⟨rfl, hreading _⟩
      · cases hact
        exact ⟨rfl, hreading _⟩
    | takeExact length =>
      cases hact
      exact ⟨rfl, hreading _⟩
    | takeAll =>
      cases hact
      exact ⟨rfl, hreading _⟩
    | finish =>
      rw [Request.act] at hact
      cases hfinish : Request.conclude r (.reading reader) with
      | error stop =>
        rw [hfinish] at hact
        cases hact
        exact ⟨rfl, forall_mem_none⟩
      | ok r₁ =>
        obtain ⟨cursor, -, rfl⟩ := Ring.finish_keeps h hfinish
        rw [hfinish] at hact
        cases hact
        exact ⟨rfl, forall_mem_none⟩
    | leave =>
      cases hact
      exact ⟨rfl, forall_mem_none⟩
    | _ => cases hact

/-- a request to an appending handle or a writer asks something of the queue -/
theorem reads_of_event (howner : s.Owner name handle was rest) (hact : request.act r was = some (next, now, result))
    (hname : was = none → request.name? = some name) (haccess : request.begins → handle.access = .append)
    (hevent : request.event? s = none) : request.begins = false ∧ ∀ stream ∈ was, stream.writer? = none := by
  cases howner with
  | free hfind =>
    refine ⟨?_, forall_mem_none⟩
    by_contra hbegins
    have happender : s.appender name = .ok handle := by
      simp only [appender, hfind, haccess (by simpa using hbegins), if_pos]
    cases request with
    | append _ payload =>
      obtain rfl := Option.some.inj (hname rfl)
      simp [Request.event?, happender, Except.toOption] at hevent
    | startWrite _ total =>
      obtain rfl := Option.some.inj (hname rfl)
      simp [Request.event?, happender, Except.toOption] at hevent
    | _ => exact hbegins rfl
  | @lent stream _ hloans =>
    cases stream with
    | reading reader =>
      refine ⟨?_, ?_⟩
      · cases request with
        | append _ payload => cases hact
        | startWrite _ total => cases hact
        | _ => rfl
      · rintro _ ⟨⟩
        rfl
    | writing writer =>
      have hwriting : s.writing = true := by
        rw [writing, hloans]
        rfl
      cases request with
      | put chunk => simp [Request.event?, hwriting] at hevent
      | finish => simp [Request.event?, hwriting] at hevent
      | leave => simp [Request.event?, hwriting] at hevent
      | _ => cases hact

/-- a request that asks nothing of the queue changes no byte, and no record that is being written -/
theorem Effect.quiet (h : s.InRange path node capacity) (heffect : Effect path s request s' reply)
    (hevent : request.event? s = none) (name : String) :
    s'.files = s.files ∧ (s'.loans.filter (Loan.writes name)).Perm (s.loans.filter (Loan.writes name)) := by
  cases heffect with
  | @turned index loan hloan =>
    obtain ⟨hindex, rfl⟩ := List.getElem?_eq_some_iff.1 hloan
    exact ⟨rfl, (List.getElem_cons_eraseIdx_perm hindex).filter _⟩
  | @acted _ owner handle was now rest next result _ howner hact hfiles hsettles hname haccess =>
    obtain ⟨hhandle, -⟩ := howner.based h.toBased
    obtain ⟨hbegins, hwas⟩ := reads_of_event howner hact hname haccess hevent
    obtain ⟨himage, hnow⟩ := Request.act_quiet (h.sound hhandle) hact hbegins hwas
    have hbefore : s.loans.filter (Loan.writes name) = rest.filter (Loan.writes name) := by
      cases howner with
      | free hfind => rfl
      | lent hloans =>
        rw [hloans, List.filter_cons_of_neg]
        simp [Loan.writes, hwas _ rfl]
    have hafter : s'.loans.filter (Loan.writes name) = rest.filter (Loan.writes name) := by
      rw [hsettles.loans]
      cases now with
      | none => rfl
      | some stream =>
        rw [List.filter_cons_of_neg]
        simp [Loan.writes, hnow _ rfl]
    refine ⟨?_, ?_⟩
    · rw [hfiles, himage]
      exact FileSystem.setImage_image s.files handle.node
    · rw [hbefore, hafter]
  | _ => exact ⟨rfl, .refl _⟩

end Quiet

/-! ## The session while a record arrives -/

/-- the latest loan has this name, and a record is being written -/
def Latest (s : Session) (name : String) : Prop := s.loans.head?.any (Loan.writes name)

instance (s : Session) (name : String) : Decidable (s.Latest name) :=
  inferInstanceAs (Decidable (s.loans.head?.any (Loan.writes name) = true))

def Request.chunk? : Request → Option Bytes
  | .put chunk => some chunk
  | _ => none

/-- each request is a piece for the record under this name, or asks nothing of the queue -/
def Feeds (path : Path) (name : String) : Session → List Request → Prop
  | _, [] => True
  | s, request :: rest =>
    (request.event? s = none ∨ request.chunk?.isSome ∧ s.Latest name) ∧ Feeds path name (s.serve path request).1 rest

instance decidableFeeds (path : Path) (name : String) :
    (s : Session) → (requests : List Request) → Decidable (s.Feeds path name requests)
  | _, [] => .isTrue trivial
  | s, request :: rest =>
    have := decidableFeeds path name (s.serve path request).1 rest
    inferInstanceAs (Decidable ((request.event? s = none ∨ request.chunk?.isSome ∧ s.Latest name)
      ∧ Feeds path name (s.serve path request).1 rest))

/-- the piece of the record that is being written, unless it is refused -/
def accepted (s : Session) : Request → Bytes
  | .put chunk => if (s.put chunk).2.isOk then chunk else []
  | _ => []

/-- all pieces that were not refused, one behind another -/
def fed (path : Path) : Session → List Request → Bytes
  | _, [] => []
  | s, request :: rest => s.accepted request ++ fed path (s.serve path request).1 rest

/-- these bytes of the record under this name have arrived, in the ring that had room for it -/
structure Streams (s : Session) (path : Path) (files : FileSystem) (name : String) (handle : Handle) (r : Ring)
    (total : Nat) (written : Bytes) : Prop extends s.InRange path handle.node r.capacity where
  room : r.image.Opens r.capacity
  fits : frameLength total < r.capacity
  fed : ∃ image, s.files = files.setImage handle.node image ∧ r.Fed total written image
  loan : s.loans.filter (Loan.writes name)
    = [{ name, handle := { handle with cursor := r.cursor }, stream := .writing (Writer.behind r total written) }]

namespace Streams

section Streams

variable {s : Session} {path : Path} {files : FileSystem} {name : String} {handle : Handle} {r : Ring} {total : Nat}
  {written payload : Bytes} {request : Request}

/-- the latest loan of this name that writes is the one of the record -/
theorem latest (h : s.Streams path files name handle r total written) (hlatest : s.Latest name) :
    ∃ rest, s.loans = { name, handle := { handle with cursor := r.cursor }
                        stream := .writing (Writer.behind r total written) } :: rest
      ∧ rest.filter (Loan.writes name) = [] := by
  have hloan := h.loan
  rw [Latest] at hlatest
  rcases hloans : s.loans with _ | ⟨loan, rest⟩
  · simp [hloans] at hlatest
  · rw [hloans, List.head?_cons, Option.any_some] at hlatest
    rw [hloans, List.filter_cons_of_pos hlatest] at hloan
    obtain ⟨rfl, hrest⟩ := List.cons.inj hloan
    exact ⟨rest, rfl, hrest⟩

/-- the file, as the handle of the record sees it -/
theorem image (h : s.Streams path files name handle r total written) :
    r.Fed total written (s.files.image handle.node) := by
  obtain ⟨image, hfiles, hfed⟩ := h.fed
  have hnode := h.node_lt
  rw [hfiles, FileSystem.size_setImage] at hnode
  rwa [hfiles, FileSystem.image_setImage hnode]

theorem quiet (h : s.Streams path files name handle r total written) (hevent : request.event? s = none) :
    (s.serve path request).1.Streams path files name handle r total written := by
  obtain ⟨hfiles, hperm⟩ := (s.effect path request).quiet h.toInRange hevent name
  refine ⟨(h.effect (s.effect path request)).1, h.room, h.fits, hfiles ▸ h.fed, ?_⟩
  rw [h.loan] at hperm
  exact hperm.eq_singleton

/-- the handle of the record is on the file -/
theorem at_file (h : s.Streams path files name handle r total written) :
    Handle.At { handle with cursor := r.cursor } path handle.node r.capacity := by
  have hmem : { name, handle := { handle with cursor := r.cursor }, stream := .writing (Writer.behind r total written) }
      ∈ s.loans.filter (Loan.writes name) := by
    rw [h.loan]
    exact List.mem_singleton_self _
  exact h.loans _ (List.mem_filter.1 hmem).1

theorem ring_eq (h : s.Streams path files name handle r total written) :
    Handle.ring { handle with cursor := r.cursor } s.files = { r with image := s.files.image handle.node } := by
  rw [Reflects.ring_eq h.at_file]

/-- a piece is refused that is longer than what is missing -/
theorem put_too_long (h : s.Streams path files name handle r total written) (hlatest : s.Latest name) {chunk : Bytes}
    (hlong : total - written.length < chunk.length) :
    s.put chunk = (s, .error
      (.refused ((Refusal.chunkTooLong chunk.length (total - written.length) total).report (some path)))) := by
  obtain ⟨rest, hloans, -⟩ := h.latest hlatest
  have hput := h.image.put_too_long h.room h.fits hlong
  have hpath : handle.path = path := h.at_file.path_eq
  simp only [Session.put, hloans, h.ring_eq, hput, refuse, Denial.ofStop]
  rw [hpath]

/-- any other piece is taken -/
theorem put (h : s.Streams path files name handle r total written) (hlatest : s.Latest name) {chunk : Bytes}
    (hshort : ¬total - written.length < chunk.length) :
    (s.put chunk).2 = .ok () ∧ (s.put chunk).1.Streams path files name handle r total (written ++ chunk) := by
  obtain ⟨rest, hloans, hrest⟩ := h.latest hlatest
  obtain ⟨next, hput, hfed⟩ := h.image.put h.room h.fits hshort
  obtain ⟨image, hfiles, -⟩ := h.fed
  have hrange : (s.put chunk).1.InRange path handle.node r.capacity := (h.effect (s.effect path (.put chunk))).1
  simp only [Session.put, hloans, h.ring_eq, hput, Ring.save] at hrange ⊢
  refine ⟨trivial, hrange, h.room, h.fits, ⟨next, ?_, hfed⟩, ?_⟩
  · rw [hfiles, FileSystem.setImage_setImage]
  · rw [List.filter_cons_of_pos (by simp [Loan.writes, Stream.writer?]), hrest]

/-- the record is the newest one, as if it had been appended at once -/
theorem finish (h : s.Streams path files name handle r payload.length payload) (hlatest : s.Latest name) :
    s.finish.2 = .ok () ∧ s.finish.1.files = files.setImage handle.node (r.placed payload)
      ∧ s.finish.1.find? name = some { handle with cursor := r.cursor } := by
  obtain ⟨rest, hloans, -⟩ := h.latest hlatest
  obtain ⟨image, hfiles, -⟩ := h.fed
  have hfinish := h.image.finish h.room h.fits
  rw [finish_eq hloans, h.ring_eq, Request.conclude, hfinish]
  refine ⟨rfl, ?_, find?_bind_self _ _ _⟩
  simp only [Session.save, Ring.save, Session.bind, Session.release, hfiles, FileSystem.setImage_setImage]

theorem accepted_of_event (hevent : request.event? s = none) : s.accepted request = [] := by
  cases request with
  | put chunk =>
    rcases Reflects.loans_cases s with ⟨hloans, -⟩ | ⟨other, lent, reader, rest, hloans, -⟩
      | ⟨other, lent, writer, rest, -, hwriting⟩
    · simp only [accepted, Session.put, hloans, Except.isOk, Except.toBool, Bool.false_eq_true, if_false]
    · simp only [accepted, Session.put, hloans, Except.isOk, Except.toBool, Bool.false_eq_true, if_false]
    · simp [Request.event?, hwriting] at hevent
  | _ => rfl

/-- one request while the record arrives -/
theorem serve (h : s.Streams path files name handle r total written)
    (hfeeds : request.event? s = none ∨ request.chunk?.isSome ∧ s.Latest name) :
    (s.serve path request).1.Streams path files name handle r total (written ++ s.accepted request) := by
  rcases hfeeds with hevent | ⟨hchunk, hlatest⟩
  · rw [accepted_of_event hevent, List.append_nil]
    exact h.quiet hevent
  · cases request with
    | put chunk =>
      by_cases hlong : total - written.length < chunk.length
      · simp only [Session.serve, accepted, h.put_too_long hlatest hlong, Except.isOk, Except.toBool,
          Bool.false_eq_true, if_false, List.append_nil]
        exact h
      · obtain ⟨hok, hstreams⟩ := h.put hlatest hlong
        simp only [accepted, hok, Except.isOk, Except.toBool, if_true]
        exact hstreams
    | _ => cases hchunk

/-- any number of requests -/
theorem run (h : s.Streams path files name handle r total written) {requests : List Request}
    (hfeeds : s.Feeds path name requests) :
    (s.run path requests).1.Streams path files name handle r total (written ++ s.fed path requests) := by
  induction requests generalizing s written with
  | nil => rwa [Session.fed, List.append_nil]
  | cons request requests ih =>
    rw [Session.fed, ← List.append_assoc]
    exact ih (h.serve hfeeds.1) hfeeds.2

end Streams

end Streams

/-- no other record is being written under the name of a handle -/
def Sole (s : Session) (name : String) : Prop := s.loans.filter (Loan.writes name) = []

instance (s : Session) (name : String) : Decidable (s.Sole name) :=
  inferInstanceAs (Decidable (s.loans.filter (Loan.writes name) = []))

section Start

variable {s : Session} {path : Path} {node capacity : Nat} {name : String} {handle : Handle} {r : Ring}
  {payload : Bytes} {stop : Stop}

theorem append_of_appender (happender : s.appender name = .ok handle) (payload : Bytes) :
    s.append name payload
      = (s.save name handle ((handle.ring s.files).append payload).1,
        ((handle.ring s.files).append payload).2.reply handle.path) := by
  simp only [Session.append, happender, Session.change, Reflects.appender_ok happender]

/-- there is no room, and so a record in pieces fails as a record at once does -/
theorem startWrite_of_no_room (h : s.InRange path node capacity) (happender : s.appender name = .ok handle)
    (hroom : (handle.ring s.files).makeRoom payload.length = (r, .error stop)) :
    (s.startWrite name payload.length).2 = .error (.ofStop path stop)
      ∧ s.append name payload = s.startWrite name payload.length := by
  have hhandle := h.handles _ (find?_mem (Reflects.appender_ok happender))
  have hpath : handle.path = path := hhandle.path_eq
  have hstart := Writer.start_eq (h.sound hhandle) payload.length
  have happend := Ring.append_eq (h.sound hhandle) payload
  rw [hroom] at hstart happend
  rw [Reflects.startWrite_eq happender, append_of_appender happender, hstart, happend, hpath]
  exact ⟨rfl, rfl⟩

/-- there is room, and the record begins -/
theorem startWrite_of_room (h : s.InRange path node capacity) (happender : s.appender name = .ok handle)
    (hsole : s.Sole name) (hroom : (handle.ring s.files).makeRoom payload.length = (r, .ok ())) :
    (s.startWrite name payload.length).2 = .ok ()
      ∧ (s.startWrite name payload.length).1.Streams path s.files name handle r payload.length []
      ∧ (s.append name payload).2 = .ok ()
      ∧ (s.append name payload).1.files = s.files.setImage handle.node (r.placed payload)
      ∧ (s.append name payload).1.find? name = some { handle with cursor := r.cursor } := by
  have hhandle := h.handles _ (find?_mem (Reflects.appender_ok happender))
  have hsound := h.sound hhandle
  have hstart := Writer.start_eq hsound payload.length
  have happend := Ring.append_eq hsound payload
  have hsame := Ring.same_makeRoom hsound payload.length
  have hrange := (h.effect (s.effect path (.startWrite name payload.length))).1
  rw [hroom] at hstart happend hsame
  have hcapacity : r.capacity = capacity := hsame.capacity.trans hhandle.capacity_eq
  have hnode : handle.node = node := hhandle.node_eq
  subst hcapacity hnode
  have hfits : frameLength payload.length < r.capacity := hsame.capacity ▸ Ring.fits_of_makeRoom hroom
  rw [serve, Reflects.startWrite_eq happender, hstart] at hrange
  rw [Reflects.startWrite_eq happender, append_of_appender happender, hstart, happend]
  refine ⟨rfl, ⟨hrange, hsame.sound.toOpens, hfits, ⟨r.image, rfl, .nil r _⟩, ?_⟩, rfl, rfl, find?_bind_self _ _ _⟩
  have hours : Loan.writes name { name, handle := { handle with cursor := r.cursor }
                                  stream := .writing (Writer.behind r payload.length []) } := by
    simp [Loan.writes, Stream.writer?]
  have hloans : s.loans.filter (Loan.writes name) = [] := hsole
  simp only [Session.lend, Session.save, Ring.save, Session.bind, Session.release,
    List.filter_cons_of_pos hours, hloans]

end Start

end Session

/-! ## Every record in pieces -/

/-- **A record in pieces is a record at once.** Whatever file opens, and whatever has been asked of the handles on it:
beginning the record fails as appending it does, with the same session left, or both succeed. Then, whatever is read in
between and whatever pieces are refused, a piece is refused only if it is too long, and changes nothing; and when the
pieces that were taken are the payload, the end succeeds and leaves the file, byte by byte, and the handle that
appending it leaves. -/
theorem stream_append_eq_append {fs : FileSystem} {path : Path} {access : Access} {opened : Handle}
    (hopen : Handle.openRing fs path access = .ok opened) (hfile : (fs.image opened.node).size ≤ Image.maxSize)
    (before : List Session.Request) {s : Session} (hs : s = (Session.run path { files := fs } before).1)
    {name : String} {handle : Handle} (happender : s.appender name = .ok handle) (hsole : s.Sole name)
    (payload : Bytes) :
    (∃ denial, (s.startWrite name payload.length).2 = .error denial
        ∧ s.append name payload = s.startWrite name payload.length)
      ∨ (s.startWrite name payload.length).2 = .ok () ∧ (s.append name payload).2 = .ok ()
        ∧ ∀ requests, (s.startWrite name payload.length).1.Feeds path name requests →
          ∀ last written, last = ((s.startWrite name payload.length).1.run path requests).1 →
            written = (s.startWrite name payload.length).1.fed path requests → last.Latest name →
            (∀ chunk : Bytes, payload.length - written.length < chunk.length →
                last.put chunk = (last, .error (.refused
                  ((Refusal.chunkTooLong chunk.length (payload.length - written.length) payload.length).report
                    (some path)))))
              ∧ (∀ chunk : Bytes, ¬payload.length - written.length < chunk.length → (last.put chunk).2 = .ok ())
              ∧ (written = payload → last.finish.2 = .ok () ∧ last.finish.1.files = (s.append name payload).1.files
                ∧ last.finish.1.find? name = (s.append name payload).1.find? name) := by
  subst hs
  have hrange := (Session.inRange_open hopen hfile).run before
  generalize (Session.run path { files := fs } before).1 = s at *
  rcases hroom : (handle.ring s.files).makeRoom payload.length with ⟨r, stop | ⟨⟩⟩
  · obtain ⟨hstart, happend⟩ := Session.startWrite_of_no_room hrange happender hroom
    exact Or.inl ⟨_, hstart, happend⟩
  · obtain ⟨hstart, hstreams, happend, hfiles, hfind⟩ := Session.startWrite_of_room hrange happender hsole hroom
    refine Or.inr ⟨hstart, happend, ?_⟩
    rintro requests hfeeds last written rfl rfl hlatest
    have hlast := hstreams.run hfeeds
    rw [List.nil_append] at hlast
    refine ⟨fun _ => hlast.put_too_long hlatest, fun _ hshort => (hlast.put hlatest hshort).1, ?_⟩
    intro hwritten
    rw [hwritten] at hlast
    obtain ⟨hfinish, hbytes, hcursor⟩ := hlast.finish hlatest
    exact ⟨hfinish, hbytes.trans hfiles.symm, hcursor.trans hfind.symm⟩

/-- a file with one record, behind which the next one goes on at the beginning of the data -/
def wrappingFile : FileSystem := .single 4 7 [0xFF, 0xFF, 0xFF, 0xFF, 0x02, 0xAA, 0xBB, 0xFF]

def wrappingSession : Session :=
  (Session.run FileSystem.singleName { files := wrappingFile } [.openRing "a" .append, .openRing "r" .read]).1

def wrappingPayload : Bytes := [1, 2, 3]

/-- the pieces of the record, with one that is refused and one that is empty, and a reader at work in between -/
def wrappingRequests : List Session.Request :=
  [.put [1], .startRead "r", .take 1, .turn 1, .put [9, 9, 9], .put [], .put [2, 3]]

theorem stream_append_eq_append_wrapping :
    ∃ handle begun last, Handle.openRing wrappingFile FileSystem.singleName .append = .ok handle
      ∧ (wrappingFile.image handle.node).size ≤ Image.maxSize
      ∧ wrappingSession.appender "a" = .ok handle ∧ wrappingSession.Sole "a"
      ∧ begun = (wrappingSession.startWrite "a" wrappingPayload.length).1
      ∧ last = (begun.run FileSystem.singleName wrappingRequests).1
      ∧ begun.Feeds FileSystem.singleName "a" wrappingRequests
      ∧ begun.fed FileSystem.singleName wrappingRequests = wrappingPayload ∧ last.Latest "a" ∧ last.finish.2 = .ok ()
      ∧ last.finish.1.files = (wrappingSession.append "a" wrappingPayload).1.files
      ∧ last.finish.1.find? "a" = (wrappingSession.append "a" wrappingPayload).1.find? "a" := by
  have hopen : Handle.openRing wrappingFile FileSystem.singleName .append
      = .ok
        { path := FileSystem.singleName, node := 0, access := .append, capacity := 8, cursor := 4 } := by decide +kernel
  have hfile : (wrappingFile.image 0).size ≤ Image.maxSize := by decide
  have hsession : wrappingSession
      = (Session.run FileSystem.singleName { files := wrappingFile } [.openRing "a" .append, .openRing "r" .read]).1 :=
        rfl
  have happender : wrappingSession.appender "a"
      = .ok
        { path := FileSystem.singleName, node := 0, access := .append, capacity := 8, cursor := 4 } := by decide +kernel
  have hsole : wrappingSession.Sole "a" := by decide +kernel
  have hstart : (wrappingSession.startWrite "a" wrappingPayload.length).2 = .ok () := by decide +kernel
  have hfeeds : (wrappingSession.startWrite "a" wrappingPayload.length).1.Feeds FileSystem.singleName "a"
      wrappingRequests := by
    decide +kernel
  have hfed : (wrappingSession.startWrite "a" wrappingPayload.length).1.fed FileSystem.singleName wrappingRequests
      = wrappingPayload := by decide +kernel
  have hlatest : ((wrappingSession.startWrite "a" wrappingPayload.length).1.run FileSystem.singleName
      wrappingRequests).1.Latest "a" := by decide +kernel
  rcases stream_append_eq_append hopen hfile _ hsession happender hsole wrappingPayload with
    ⟨denial, hdenied, -⟩ | ⟨-, -, hall⟩
  · rw [hstart] at hdenied
    cases hdenied
  · obtain ⟨-, -, hdone⟩ := hall wrappingRequests hfeeds _ _ rfl rfl hlatest
    exact ⟨_, _, _, hopen, hfile, happender, hsole, rfl, rfl, hfeeds, hfed, hlatest, hdone hfed⟩

end CircularLog
