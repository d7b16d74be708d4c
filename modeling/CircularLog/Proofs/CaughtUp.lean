/-
The next record. Whatever was dropped for it, and whatever lies around it, a record that is appended lies from the old
stop offset to the new one, and there a handle finds it that had nothing left to read.

- `Ring.lies_placed`: the record is all that lies behind the old stop offset.
- `Session.nextIs_placed`: so a handle that stands there reads it, and then nothing.
- `caught_up_handle_gets_next_record`: a record at once, and a record in pieces.
-/
import CircularLog.Proofs.Committed
import CircularLog.Proofs.Reading

namespace CircularLog

namespace Ring

variable {r : Ring} {payload : Bytes}

theorem lies_placed (h : r.image.Opens r.capacity) (hfits : frameLength payload.length < r.capacity) :
    (r.placed payload).Lies r.capacity r.image.stop [payload] where
  weight_lt := by
    rw [weight_cons, weight_nil, Nat.add_zero]
    exact hfits
  stop_eq := by
    rw [weight_cons, weight_nil, Nat.add_zero, stop_placed h hfits]
  framed_front := by
    obtain ⟨laid, hsize, -, hcircle, hplaced⟩ := scatter_frame h hfits
    rw [hplaced, Image.circle_setStop (h.block_le.trans_eq hsize.symm), hcircle, framed_cons, framed_nil,
      List.append_nil]
    exact prefix_lay _ List.nil_prefix rfl

end Ring

namespace Session

/-- the next record under the name is this one, and behind it there is none -/
def NextIs (s : Session) (name : String) (payload : Bytes) : Prop :=
  (s.record name).2 = .ok (some payload) ∧ ((s.record name).1.record name).2 = .ok none

section CaughtUp

variable {s last : Session} {path : Path} {node capacity : Nat} {name other : String}
  {handle reader : Handle} {r : Ring} {payload : Bytes}

/-- a handle in front of the last record reads it, and then nothing -/
theorem nextIs_of_lies (hfind : s.find? name = some handle) (h : (handle.ring s.files).Sound)
    (hlies : (handle.ring s.files).image.Lies (handle.ring s.files).capacity (handle.ring s.files).cursor [payload]) :
    s.NextIs name payload := by
  obtain ⟨next, hnext⟩ : ∃ next, next = (handle.cursor + frameLength payload.length) % handle.capacity := ⟨_, rfl⟩
  have hrecord : s.record name
      = (s.save name handle { handle.ring s.files with cursor := next }, .ok (some payload)) := by
    simp only [Session.record, change, hfind, hlies.record h, Ring.after, hnext]
    rfl
  have hleaves := leaves_save s name handle next
  have hsound : ({ handle.ring s.files with cursor := next } : Ring).Sound :=
    ⟨h.toOpens, hnext ▸ Nat.mod_lt _ h.pos⟩
  have hnone : ({ handle.ring s.files with cursor := next } : Ring).record
      = .ok ({ handle.ring s.files with cursor := next }, none) :=
    Image.Lies.record_nil hsound (hnext ▸ hlies.tail h.toOpens)
  rw [NextIs, hrecord]
  refine ⟨rfl, ?_⟩
  have hring : Handle.ring { handle with cursor := next }
      (s.save name handle { handle.ring s.files with cursor := next }).files
      = { handle.ring s.files with cursor := next } := by
    rw [hleaves.files]
    rfl
  simp only [Session.record, change, hleaves.self, hring, hnone]
  rfl

/-- a handle at the old stop offset finds the record that has been placed there -/
theorem nextIs_placed (h : r.image.Opens capacity) (hcapacity : r.capacity = capacity)
    (hfits : frameLength payload.length < capacity) (hreader : reader.At path node capacity)
    (hcursor : reader.cursor = r.image.stop) (hfind : last.find? other = some reader)
    (himage : last.files.image node = r.placed payload) : last.NextIs other payload := by
  subst hcapacity
  have hopens := Ring.opens_placed h hfits
  have hlies := Ring.lies_placed h hfits
  -- field by field, so that the rings are not compared by computing the stop offset
  have hbytes : (reader.ring last.files).image = r.placed payload := by rw [Handle.ring, hreader.node_eq, himage]
  have hcapacity : (reader.ring last.files).capacity = r.capacity := hreader.capacity_eq
  have hplace : (reader.ring last.files).cursor = r.image.stop := hcursor
  rw [← hbytes, ← hcapacity] at hopens hlies
  rw [← hplace] at hlies
  exact nextIs_of_lies hfind ⟨hopens, hreader.cursor_lt.trans_eq hreader.capacity_eq.symm⟩ hlies

/-- beginning a record concerns no other handle -/
theorem find?_startWrite_of_ne (happender : s.appender name = .ok handle) (hother : other ≠ name) (total : Nat) :
    (s.startWrite name total).1.find? other = s.find? other := by
  rw [Reflects.startWrite_eq happender]
  rcases Writer.start (handle.ring s.files) total with ⟨r, stop | writer⟩
  · exact (settles_save s name handle r).others other hother
  · exact (settles_lend_save s name handle r _).others other hother

/-- pieces concern no handle that is free -/
theorem find?_put (s : Session) (chunk : Bytes) (other : String) : (s.put chunk).1.find? other = s.find? other := by
  rw [Session.put]
  split
  · split
    · rfl
    · rfl
  · rfl

theorem find?_run_of_chunks {requests : List Request} (hchunks : ∀ request ∈ requests, request.chunk?.isSome) :
    (s.run path requests).1.find? other = s.find? other := by
  induction requests generalizing s with
  | nil => rfl
  | cons request requests ih =>
    obtain ⟨hchunk, hrest⟩ := List.forall_mem_cons.1 hchunks
    cases request with
    | put chunk => exact (ih hrest).trans (find?_put s chunk other)
    | _ => cases hchunk

/-- the end of a record in pieces concerns no other handle -/
theorem find?_finish_of_ne (hlatest : s.Latest name) (hother : other ≠ name) :
    s.finish.1.find? other = s.find? other := by
  rw [Latest] at hlatest
  rcases hloans : s.loans with _ | ⟨⟨owner, handle, stream⟩, rest⟩
  · simp [hloans] at hlatest
  · obtain rfl : owner = name := by
      simp [hloans, Loan.writes] at hlatest
      exact hlatest.1
    rw [finish_eq hloans]
    split
    · exact find?_bind_of_ne _ _ hother
    · exact find?_bind_of_ne _ _ hother

end CaughtUp

end Session

/-- **A handle that has read everything gets the next record.** For whatever handles on a file that opens, with whatever
data: a record that is appended is what a handle at the stop offset reads next, and then there is none. So it is with a
record in pieces, however many, with reading in between or without, as long as the handle is at the same offset when the
last of them has come; the pieces themselves leave it there. -/
theorem caught_up_handle_gets_next_record {s : Session} {path : Path} {node capacity : Nat}
    (h : s.InRange path node capacity)
    {name other : String} {handle reader : Handle} (happender : s.appender name = .ok handle) (hother : other ≠ name)
    (hfind : s.find? other = some reader) (hcaught : reader.cursor = (s.files.image node).stop) (payload : Bytes) :
    ((s.append name payload).2 = .ok () → (s.append name payload).1.NextIs other payload)
      ∧ (s.Sole name → (s.startWrite name payload.length).2 = .ok () →
        ∀ requests, (s.startWrite name payload.length).1.Feeds path name requests →
          (s.startWrite name payload.length).1.fed path requests = payload →
          ∀ last, last = ((s.startWrite name payload.length).1.run path requests).1 → last.Latest name →
            last.finish.2 = .ok ()
              ∧ ((∀ request ∈ requests, request.chunk?.isSome) → last.find? other = some reader)
              ∧ ∀ met, last.find? other = some met → met.cursor = reader.cursor →
                last.finish.1.NextIs other payload) := by
  have hhandle : handle.At path node capacity :=
    h.handles _ (Session.find?_mem (Session.Reflects.appender_ok happender))
  have hreader : reader.At path node capacity := h.handles _ (Session.find?_mem hfind)
  have hsound := h.sound hhandle
  have hsame := Ring.same_makeRoom hsound payload.length
  have hring := Session.Reflects.ring_eq (s := s) hhandle
  rcases hroom : (handle.ring s.files).makeRoom payload.length with ⟨r, stop | ⟨⟩⟩
  · obtain ⟨hstart, happend⟩ := Session.startWrite_of_no_room h happender hroom
    rw [happend, hstart]
    constructor
    · intro hok
      cases hok
    · intro _ hok
      cases hok
  · have hfits : frameLength payload.length < (handle.ring s.files).capacity := Ring.fits_of_makeRoom hroom
    rw [hroom] at hsame
    rw [hring] at hfits
    have hcapacity : r.capacity = capacity := hsame.capacity.trans hhandle.capacity_eq
    have hopens : r.image.Opens capacity := hcapacity ▸ hsame.sound.toOpens
    have hstop : reader.cursor = r.image.stop := by rw [hcaught, hsame.stop, hring]
    have hplaced : (s.files.setImage handle.node (r.placed payload)).image node = r.placed payload := by
      rw [hhandle.node_eq, FileSystem.image_setImage h.node_lt]
    constructor
    · intro _
      have happend := Ring.append_eq hsound payload
      rw [hroom] at happend
      rw [Session.append_of_appender happender, happend]
      have hstay : (s.save name handle { r with image := r.placed payload }).find? other = some reader :=
        (Session.find?_bind_of_ne _ _ hother).trans hfind
      exact Session.nextIs_placed hopens hcapacity hfits hreader hstop hstay hplaced
    · rintro hsole - requests hfeeds hfed last rfl hlatest
      obtain ⟨-, hstreams, -⟩ := Session.startWrite_of_room h happender hsole hroom
      have hlast := hstreams.run hfeeds
      rw [List.nil_append, hfed] at hlast
      obtain ⟨hfinish, hfiles, -⟩ := hlast.finish hlatest
      refine ⟨hfinish, ?_, ?_⟩
      · intro hchunks
        rw [Session.find?_run_of_chunks hchunks, Session.find?_startWrite_of_ne happender hother, hfind]
      · intro met hmet hcursor
        have hat : met.At path handle.node r.capacity := hlast.handles _ (Session.find?_mem hmet)
        rw [hhandle.node_eq, hcapacity] at hat
        have hstay := (Session.find?_finish_of_ne hlatest hother).trans hmet
        exact Session.nextIs_placed hopens hcapacity hfits hat (hcursor.trans hstop) hstay (by rw [hfiles, hplaced])

/-- an old record and a broken one behind it -/
def hinderedFile : FileSystem := .single 0 6 [0x02, 0xAA, 0xBB, 0x7F, 0xCC, 0xDD, 0xFF, 0xFF]

/-- a handle that appends, and one that is at the stop offset all the same -/
def hinderedSession : Session :=
  { files := hinderedFile
    handles := [("a", singleHandle), ("r", { singleHandle with access := .read, cursor := 6 })] }

/-- the pieces of a record, and a look for the next one in between -/
def lookingRequests : List Session.Request := [.put [1], .record "r", .put [2, 3]]

/-- the old record has to go, and the new one goes on over the end of the data -/
theorem caught_up_handle_gets_next_record_wrapping :
    ∃ reader last, (hinderedSession.InRange FileSystem.singleName 0 8 ∧ hinderedSession.appender "a" = .ok singleHandle
        ∧ hinderedSession.find? "r" = some reader ∧ reader.cursor = (hinderedSession.files.image 0).stop)
      ∧ (hinderedSession.append "a" [1, 2, 3]).2 = .ok ()
      ∧ (hinderedSession.append "a" [1, 2, 3]).1.NextIs "r" [1, 2, 3]
      ∧ last = ((hinderedSession.startWrite "a" 3).1.run FileSystem.singleName lookingRequests).1
      ∧ last.finish.2 = .ok () ∧ last.finish.1.NextIs "r" [1, 2, 3] := by
  obtain ⟨reader, hreader⟩ : ∃ reader : Handle, reader = { singleHandle with access := .read, cursor := 6 } := ⟨_, rfl⟩
  have hopen : Handle.openRing hinderedFile FileSystem.singleName .append = .ok singleHandle := by decide
  have hfile : (hinderedFile.image singleHandle.node).size ≤ Image.maxSize := by decide
  obtain ⟨hlookup, hopens, -⟩ := Handle.of_openRing hopen hfile
  have hhandles : ∀ entry ∈ hinderedSession.handles, entry.2.At FileSystem.singleName 0 8 :=
    List.forall_mem_cons.2 ⟨⟨rfl, rfl, rfl, by decide⟩,
      List.forall_mem_cons.2 ⟨⟨rfl, rfl, rfl, by decide⟩, List.forall_mem_nil _⟩⟩
  have hrange : hinderedSession.InRange FileSystem.singleName 0 8 :=
    ⟨⟨hlookup, FileSystem.node_lt_of_opens hopens, hhandles, List.forall_mem_nil _⟩, hopens, List.forall_mem_nil _⟩
  have happender : hinderedSession.appender "a" = .ok singleHandle := by decide +kernel
  have hfind : hinderedSession.find? "r" = some reader := by
    rw [hreader]
    decide +kernel
  have hcaught : reader.cursor = (hinderedSession.files.image 0).stop := by
    rw [hreader]
    decide +kernel
  have happend : (hinderedSession.append "a" [1, 2, 3]).2 = .ok () := by decide +kernel
  have hstart : (hinderedSession.startWrite "a" 3).2 = .ok () := by decide +kernel
  have hsole : hinderedSession.Sole "a" := by decide +kernel
  have hfeeds : (hinderedSession.startWrite "a" 3).1.Feeds FileSystem.singleName "a"
      lookingRequests := by decide +kernel
  have hfed : (hinderedSession.startWrite "a" 3).1.fed FileSystem.singleName lookingRequests
      = [1, 2, 3] := by decide +kernel
  have hlatest : ((hinderedSession.startWrite "a" 3).1.run FileSystem.singleName lookingRequests).1.Latest "a" := by
    decide +kernel
  have hmet : ((hinderedSession.startWrite "a" 3).1.run FileSystem.singleName lookingRequests).1.find? "r"
      = some reader := by
    rw [hreader]
    decide +kernel
  obtain ⟨hnext, hstream⟩ := caught_up_handle_gets_next_record hrange happender (by decide) hfind hcaught [1, 2, 3]
  obtain ⟨hfinish, -, hlast⟩ := hstream hsole hstart lookingRequests hfeeds hfed _ rfl hlatest
  exact ⟨reader, _, ⟨hrange, happender, hfind, hcaught⟩, happend, hnext happend, rfl, hfinish, hlast reader hmet rfl⟩

end CircularLog
