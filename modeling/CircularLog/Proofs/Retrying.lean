/-
An abandoned record costs nothing. Room has been made for it and some of its bytes have been written, behind the newest
record and a gap for the prefix; neither touches the records that were kept. When the record is appended after all, the
room is still there, and its frame covers every byte that was left behind.

- `lay_covers`: bytes that are laid over all of the others leave nothing of them.
- `Ring.room_of_makeRoom`: where room has been made, there is room.
- `Ring.Fed.retained`, `Ring.Fed.append`: what an abandoned record leaves, and appending on it.
- `Ring.Agrees.drainFrom`: rings with the same bytes up to the stop offset give the same records, if no frame steps past
  it.
- `Session.Streams.keeps`, `Session.Streams.retries`: the same for the files and handles of a session.
- `abandoned_record_costs_nothing`: from any file that opens.
- `abandoned_record_is_read`: a file that opens, with a record that lies past the stop offset.
-/
import CircularLog.Proofs.Damage
import CircularLog.Proofs.Streaming

namespace CircularLog

theorem lay_covers {bytes first second : Bytes} {position : Nat} (hcovers : position + first.length ≤ second.length)
    (h : second.length ≤ bytes.length) : lay (lay bytes position first) 0 second = lay bytes 0 second := by
  have hbehind : (lay bytes position first).drop (0 + second.length) = bytes.drop (0 + second.length) :=
    drop_lay (by omega) (by omega)
  conv_lhs => rw [lay, List.take_zero, hbehind]
  rw [lay, List.take_zero]

namespace Ring

/-! ## Room -/

section Room

variable {r r₁ : Ring} {length total fuel : Nat} {written payload : Bytes} {image : Image}

theorem room_of_reserveWithin (h : r.Sound) (hreserve : reserveWithin fuel r length = (r₁, .ok ())) :
    ¬r₁.Crowded length r₁.image.start := by
  induction fuel generalizing r with
  | zero => cases hreserve
  | succ fuel ih =>
    by_cases hcrowded : r.Crowded length r.image.start
    · rw [reserveWithin_of_crowded h fuel hcrowded, evict_eq h] at hreserve
      by_cases hempty : r.image.start = r.image.stop
      · rw [if_pos hempty] at hreserve
        cases hreserve
      · rw [if_neg hempty] at hreserve
        cases hframe : r.frameAt r.image.start r.image.stop with
        | error stop =>
          rw [hframe] at hreserve
          cases hreserve
        | ok frame =>
          rw [hframe] at hreserve
          exact ih (h.drop frame) hreserve
    · rw [reserveWithin_of_room h fuel hcrowded] at hreserve
      cases hreserve
      exact hcrowded

theorem room_of_makeRoom (h : r.Sound) (hroom : r.makeRoom total = (r₁, .ok ())) :
    ¬r₁.Crowded (frameLength total) r₁.image.start := by
  rw [makeRoom_of_fits (fits_of_makeRoom hroom), reserve] at hroom
  exact room_of_reserveWithin h hroom

/-! ### With bytes of an abandoned record in it -/

theorem Fed.start_eq (h : r.Fed total written image) : image.start = r.image.start := Image.start_congr h.head

theorem Fed.stop_eq (h : r.Fed total written image) : image.stop = r.image.stop := Image.stop_congr h.head

theorem Fed.eq_of_nil (h : r.Fed total [] image) : image = r.image := by
  have hlaid := h.laid
  rw [lay_nil] at hlaid
  exact Image.ext_head_circle h.head (List.rotate_injective _ hlaid)

/-- the bytes are not among the records -/
theorem Fed.retained (h : r.Fed total written image) (hopens : r.image.Opens r.capacity)
    (hroom : ¬r.Crowded (frameLength total) r.image.start) {i : Nat} (hi : i < r.load) :
    image.toBytes[Region.place r.capacity (r.image.start + i)]?
      = r.image.toBytes[Region.place r.capacity (r.image.start + i)]? := by
  have hload := load_lt hopens
  have hparts := frameLength_eq total
  have hwritten := h.written_le
  rw [crowded_start] at hroom
  -- from the stop offset, the place is behind all that is free
  have hplace : Region.place r.capacity (r.image.start + i)
      = Region.place r.capacity (r.image.stop + (r.capacity - r.load + i)) := by
    have hstop : (r.image.start + r.load) % r.capacity = r.image.stop := Circle.add_way hopens.start_lt hopens.stop_lt
    have hturn : r.image.start + r.load + (r.capacity - r.load + i) = r.image.start + i + r.capacity := by omega
    rw [Region.place, Region.place]
    conv_rhs => rw [← hstop, Nat.mod_add_mod, hturn, Nat.add_mod_right]
  have hbehind : r.capacity - r.load + i < r.capacity := by omega
  rw [hplace, ← Region.getElem?_circle (h.opens hopens).size hbehind,
    ← Region.getElem?_circle hopens.size hbehind, h.laid]
  apply getElem?_lay
  · rw [hopens.length_rotate]
    omega
  · exact .inr (by omega)

/-- the room is still there -/
theorem Fed.makeRoom (h : r.Fed total written image) (hsound : r.Sound) (hfits : frameLength total < r.capacity)
    (hroom : ¬r.Crowded (frameLength total) r.image.start) :
    ({ r with image } : Ring).makeRoom total = ({ r with image }, .ok ()) := by
  have hopens : ({ r with image } : Ring).Sound := ⟨h.opens hsound.toOpens, hsound.cursor_lt⟩
  have hspace : ¬({ r with image } : Ring).Crowded (frameLength total) image.start := by
    simp only [Crowded, ahead, h.start_eq, h.stop_eq]
    exact hroom
  rw [makeRoom_of_fits (r := { r with image }) hfits]
  exact reserveWithin_of_room hopens _ hspace

/-- the frame of the record covers the bytes -/
theorem Fed.placed (h : r.Fed payload.length written image) (hopens : r.image.Opens r.capacity)
    (hfits : frameLength payload.length < r.capacity) :
    ({ r with image } : Ring).placed payload = r.placed payload := by
  have hparts := frameLength_eq payload.length
  have hwritten := h.written_le
  have hframe : (Varint.encode payload.length ++ payload).length = frameLength payload.length :=
    length_encode_frame (hopens.lt_bound (by omega))
  obtain ⟨laid, -, hhead, hcircle, hplaced⟩ := scatter_frame hopens hfits
  obtain ⟨laid', -, hhead', hcircle', hplaced'⟩ := @scatter_frame { r with image } payload (h.opens hopens) hfits
  have hturned := hopens.length_rotate r.image.stop
  simp only [h.stop_eq, h.laid] at hcircle'
  rw [lay_covers (by omega) (by omega)] at hcircle'
  have hsame : laid' = laid := Image.ext_head_circle (hhead'.trans (h.head.trans hhead.symm))
    (List.rotate_injective _ (hcircle'.trans hcircle.symm))
  rw [hplaced', hplaced, hsame, h.stop_eq]

/-- placing a record drops nothing -/
theorem start_placed (hopens : r.image.Opens r.capacity) (hfits : frameLength payload.length < r.capacity) :
    (r.placed payload).start = r.image.start := by
  obtain ⟨laid, hsize, hhead, -, hplaced⟩ := scatter_frame hopens hfits
  rw [hplaced, Image.start_setStop (hopens.block_le.trans_eq hsize.symm), Image.start_congr hhead]

/-- appending on what was left is appending in the first place -/
theorem Fed.append (h : r.Fed payload.length written image) (hsound : r.Sound)
    (hfits : frameLength payload.length < r.capacity)
    (hroom : ¬r.Crowded (frameLength payload.length) r.image.start) :
    ({ r with image } : Ring).append payload = ({ r with image := r.placed payload }, .ok ()) := by
  have hopens : ({ r with image } : Ring).Sound := ⟨h.opens hsound.toOpens, hsound.cursor_lt⟩
  rw [append_eq hopens, h.makeRoom hsound hfits hroom]
  simp only [h.placed hsound.toOpens hfits]

end Room

/-! ## Reading what was kept -/

/-- the other ring has the same control block, and the same bytes from the place up to the stop offset -/
structure Agrees (r other : Ring) (place : Nat) : Prop where
  capacity : other.capacity = r.capacity
  head : other.image.head = r.image.head
  bytes : (other.image.circle.rotate place).take (r.ahead place) = (r.image.circle.rotate place).take (r.ahead place)

section Agrees

variable {r other : Ring} {origin place first second n : Nat} {frame : Frame}

theorem Agrees.stop_eq (h : r.Agrees other place) : other.image.stop = r.image.stop := Image.stop_congr h.head

/-- files with the same bytes there -/
theorem agrees_of_retained {image other : Image} {capacity : Nat} (hopens : image.Opens capacity)
    (hopens' : other.Opens capacity) (hhead : other.head = image.head) (hplace : place < capacity)
    (hretained : ∀ i < Circle.way capacity place image.stop,
      other.toBytes[Region.place capacity (place + i)]? = image.toBytes[Region.place capacity (place + i)]?) :
    Agrees { image, capacity, cursor := place } { image := other, capacity, cursor := place } place where
  capacity := rfl
  head := hhead
  bytes := by
    have hway : Circle.way capacity place image.stop < capacity := Circle.way_lt hplace
    apply List.ext_getElem?
    intro i
    rw [ahead, List.getElem?_take, List.getElem?_take]
    split
    · rename_i hi
      have hlt : i < capacity := lt_trans hi hway
      rw [Region.getElem?_circle hopens'.size hlt, Region.getElem?_circle hopens.size hlt]
      exact hretained i hi
    · rfl

/-- a stretch that ends at the stop offset or before it -/
theorem Agrees.stretch (h : r.Agrees other place) (hopens : r.image.Opens r.capacity)
    (hopens' : other.image.Opens other.capacity) (hplace : place < r.capacity)
    (hlength : first + second ≤ r.ahead place) :
    (other.image.circle.rotate (place + first)).take second = (r.image.circle.rotate (place + first)).take second := by
  have hahead : r.ahead place < r.capacity := ahead_lt hplace
  have hcircle : r.image.circle.length = r.capacity := hopens.length_circle
  have hcircle' : other.image.circle.length = r.capacity := hopens'.length_circle.trans h.capacity
  have hjoint := congrArg (List.take (first + second)) h.bytes
  rw [List.take_take, List.take_take, Nat.min_eq_left hlength, ← take_rotate_append (by omega),
    ← take_rotate_append (by omega)] at hjoint
  exact (List.append_inj hjoint (by simp only [List.length_take, List.length_rotate, hcircle, hcircle'])).2

/-- the same frame is found -/
theorem Agrees.frameAt (h : r.Agrees other place) (hopens : r.image.Opens r.capacity)
    (hopens' : other.image.Opens other.capacity) (hplace : place < r.capacity) :
    other.frameAt place other.image.stop = r.frameAt place r.image.stop := by
  have hpeek := congrArg (List.take (min (r.ahead place) Varint.maxSize)) h.bytes
  rw [List.take_take, List.take_take, Nat.min_eq_left (Nat.min_le_left _ _), ahead] at hpeek
  rw [frameAt_eq hopens' (h.capacity.symm ▸ hplace) hopens'.stop_lt, frameAt_eq hopens hplace hopens.stop_lt, h.stop_eq,
    h.capacity, hpeek]

/-- and behind a frame that does not step past the stop offset the bytes are the same again -/
theorem Agrees.next (h : r.Agrees other place) (hopens : r.image.Opens r.capacity)
    (hopens' : other.image.Opens other.capacity) (hplace : place < r.capacity)
    (hlength : frame.length ≤ r.ahead place) :
    r.Agrees other ((place + frame.length) % r.capacity) where
  capacity := h.capacity
  head := h.head
  bytes := by
    have hrest := h.stretch hopens hopens' hplace (Nat.add_sub_cancel' hlength).le
    have hturn : other.image.circle.rotate ((place + frame.length) % r.capacity)
        = other.image.circle.rotate (place + frame.length) := by
      rw [← h.capacity, hopens'.rotate_mod]
    rwa [ahead_next hopens hplace hlength, hturn, hopens.rotate_mod]

/-- reading a record at a place -/
theorem record_seek (h : r.Sound) (hplace : place < r.capacity) :
    (r.seek place).record
      = if place = r.image.stop then .ok (r.seek place, none)
        else match r.frameAt place r.image.stop with
          | .error stop => .error stop
          | .ok frame =>
            .ok (r.seek ((place + frame.length) % r.capacity),
              some ((r.image.circle.rotate (place + frame.header)).take frame.payload)) :=
  record_eq (h.seek hplace)

/-- the records that are read are the same, and so is how the reading ends -/
theorem Agrees.drainFrom (hsound : r.Sound) (hsound' : other.Sound) (hcontained : r.Contained r.Unread origin)
    (horigin : origin < r.capacity) (hwalk : r.Walk r.Unread origin n place) (h : r.Agrees other place)
    (taken : List Bytes)
    (count : Nat) : ((other.seek place).drainFrom count taken).2 = ((r.seek place).drainFrom count taken).2 := by
  induction count generalizing n place taken with
  | zero => rfl
  | succ count ih =>
    have hplace := hwalk.place_lt horigin
    rw [Ring.drainFrom, Ring.drainFrom, record_seek hsound hplace, record_seek hsound' (h.capacity.symm ▸ hplace),
      h.frameAt hsound.toOpens hsound'.toOpens hplace, h.stop_eq, h.capacity]
    by_cases hend : place = r.image.stop
    · rw [if_pos hend, if_pos hend]
    · rw [if_neg hend, if_neg hend]
      cases hframe : r.frameAt place r.image.stop with
      | error stop => rfl
      | ok frame =>
        have hlength := hcontained n place frame hwalk hend hframe
        have hpayload := h.stretch hsound.toOpens hsound'.toOpens hplace hlength
        simp only [hpayload]
        exact ih (hwalk.next hend hframe) (h.next hsound.toOpens hsound'.toOpens hplace hlength) _

/-- no record goes past the stop offset -/
def Whole (r : Ring) : Prop := r.Contained r.Unread r.image.start

/-- both read from the place on -/
theorem Agrees.drain (hsound : r.Sound) (hsound' : other.Sound) (hcursor : r.cursor = place)
    (hcursor' : other.cursor = place)
    (hcontained : r.Contained r.Unread place) (h : r.Agrees other place) (count : Nat) :
    (other.drain count).2 = (r.drain count).2 := by
  have hseek : r.seek place = r := by rw [← hcursor, seek]
  have hseek' : other.seek place = other := by rw [← hcursor', seek]
  have hdrain := h.drainFrom hsound hsound' hcontained (hcursor ▸ hsound.cursor_lt) .here [] count
  rw [hseek, hseek'] at hdrain
  exact hdrain

end Agrees

end Ring

/-! ## Files and handles -/

/-- the other files keep what this file holds, and only free space may be other than it was -/
structure FileSystem.Keeps (fs other : FileSystem) (path : Path) (node capacity : Nat) : Prop where
  size : (other.image node).size = (fs.image node).size
  /-- the mark, the flags and both offsets -/
  head : (other.image node).head = (fs.image node).head
  /-- the bytes from the start offset to the stop offset -/
  retained : ∀ i < Circle.way capacity (fs.image node).start (fs.image node).stop,
    (other.image node).toBytes[Region.place capacity ((fs.image node).start + i)]?
      = (fs.image node).toBytes[Region.place capacity ((fs.image node).start + i)]?
  /-- what a reader finds -/
  scan_eq : ({ image := fs.image node, capacity, cursor := (fs.image node).start } : Ring).Whole →
    ∀ count, other.scan path count = fs.scan path count

theorem FileSystem.keeps_of_retained {fs other : FileSystem} {path : Path} {node capacity : Nat}
    (hlookup : ∃ place, fs.lookup path = .ok (place, .file node))
    (hlookup' : ∃ place, other.lookup path = .ok (place, .file node))
    (hopens : (fs.image node).Opens capacity) (hsize : (other.image node).size = (fs.image node).size)
    (hhead : (other.image node).head = (fs.image node).head)
    (hretained : ∀ i < Circle.way capacity (fs.image node).start (fs.image node).stop,
      (other.image node).toBytes[Region.place capacity ((fs.image node).start + i)]?
        = (fs.image node).toBytes[Region.place capacity ((fs.image node).start + i)]?) :
    fs.Keeps other path node capacity where
  size := hsize
  head := hhead
  retained := hretained
  scan_eq hwhole count := by
    have hopens' := hopens.of_head hsize hhead
    have hstart : (other.image node).start = (fs.image node).start := Image.start_congr hhead
    -- through lemmas on any place: a direct comparison would compute the start offset
    have hagrees := Ring.agrees_of_retained hopens hopens' hhead hopens.start_lt hretained
    have hdrain :=
      hagrees.drain (hopens.sound hopens.start_lt) (hopens'.sound hopens.start_lt) (by simp only) (by simp only)
      hwhole count
    rw [scan_eq hlookup hopens, scan_eq hlookup' hopens', hstart, hdrain]

namespace Session

/-- the record is appended after all, as if it had not been begun before -/
structure Retries (s begun later : Session) (name : String) (node : Nat) (payload : Bytes) : Prop where
  accepted : (later.append name payload).2 = .ok ()
  drops_nothing : ((later.append name payload).1.files.image node).start = (begun.files.image node).start
  files_eq : (later.append name payload).1.files = (s.append name payload).1.files
  handle_eq : (later.append name payload).1.find? name = (s.append name payload).1.find? name

/-- requests that ask nothing of the queue leave the files alone -/
theorem InRange.files_of_quiet {s : Session} {path : Path} {node capacity : Nat} (h : s.InRange path node capacity)
    {requests : List Request} (hquiet : (s.run path requests).2 = []) : (s.run path requests).1.files = s.files := by
  induction requests generalizing s with
  | nil => rfl
  | cons request requests ih =>
    simp only [Session.run, List.append_eq_nil_iff, List.map_eq_nil_iff, Option.toList_eq_nil_iff] at hquiet
    obtain ⟨hevent, hrest⟩ := hquiet
    have heffect := s.effect path request
    exact (ih (h.effect heffect).1 hrest).trans (heffect.quiet h hevent "").1

namespace Streams

section Abandoned

variable {s begun later : Session} {path : Path} {files : FileSystem} {name : String} {handle : Handle} {r : Ring}
  {total : Nat} {written payload : Bytes}

/-- the loan ends, and the handle is free again -/
theorem leave (h : s.Streams path files name handle r total written) (hlatest : s.Latest name) :
    s.leave.files = s.files ∧ s.leave.find? name = some { handle with cursor := r.cursor } := by
  obtain ⟨rest, hloans, -⟩ := h.latest hlatest
  simp only [Session.leave, hloans]
  exact ⟨rfl, find?_bind_self _ _ _⟩

/-- and so it does when the record is finished too early -/
theorem finish_short (h : s.Streams path files name handle r total written) (hlatest : s.Latest name)
    (hshort : written.length ≠ total) :
    s.finish = (s.leave,
      .error (.refused ((Refusal.unfinished (total - written.length) total).report (some path)))) := by
  obtain ⟨rest, hloans, -⟩ := h.latest hlatest
  have hpath : handle.path = path := h.at_file.path_eq
  have hwritten := h.image.written_le
  have hmissing : (Writer.behind r total written).remaining ≠ 0 := by
    simp only [Writer.behind]
    omega
  have hfinish := Writer.finish_eq (r := { r with image := s.files.image handle.node }) (h.image.opens h.room)
    (Writer.behind_in_range h.room h.fits written)
  rw [if_pos hmissing] at hfinish
  rw [finish_eq hloans, h.ring_eq, Request.conclude, hfinish]
  simp only [refuse, Denial.ofStop, Session.leave, hloans, Writer.behind, hpath]

/-- while the record arrives, and whatever of it has arrived, the file keeps what it held when the room had been made -/
theorem keeps (hbegun : begun.Streams path files name handle r total [])
    (hroom : ¬r.Crowded (frameLength total) r.image.start) (h : s.Streams path files name handle r total written)
    (hlater : later.files = s.files) : begun.files.Keeps later.files path handle.node r.capacity := by
  have himage : begun.files.image handle.node = r.image := hbegun.image.eq_of_nil
  apply FileSystem.keeps_of_retained hbegun.lookup (hlater ▸ h.lookup)
  all_goals rw [himage]
  · exact h.room
  · rw [hlater, h.image.size]
  · rw [hlater, h.image.head]
  · intro i hi
    rw [hlater]
    exact h.image.retained h.room hroom hi

/-- appending the record with the handle that it was begun with -/
theorem retries (hbegun : begun.Streams path files name handle r payload.length [])
    (hroom : ¬r.Crowded (frameLength payload.length) r.image.start)
    (h : s.Streams path files name handle r payload.length written) (haccess : handle.access = .append)
    (hlater : later.files = s.files) (hfind : later.find? name = some { handle with cursor := r.cursor }) :
    (later.append name payload).2 = .ok ()
      ∧ ((later.append name payload).1.files.image handle.node).start = (begun.files.image handle.node).start
      ∧ (later.append name payload).1.files = files.setImage handle.node (r.placed payload)
      ∧ (later.append name payload).1.find? name = some { handle with cursor := r.cursor } := by
  have happender : later.appender name = .ok { handle with cursor := r.cursor } := by
    simp only [Session.appender, hfind, haccess, if_true]
  have hring : Handle.ring { handle with cursor := r.cursor } later.files
      = { r with image := s.files.image handle.node } := by
    rw [hlater, h.ring_eq]
  have hsound : r.Sound := ⟨h.room, h.at_file.cursor_lt⟩
  have hfiles : (later.append name payload).1.files = files.setImage handle.node (r.placed payload) := by
    obtain ⟨image, himage, -⟩ := h.fed
    rw [append_of_appender happender, hring, h.image.append hsound h.fits hroom]
    simp only [Session.save, Ring.save, Session.bind, Session.release, hlater, himage, FileSystem.setImage_setImage]
  have hnode := h.node_lt
  obtain ⟨image, himage, -⟩ := h.fed
  rw [himage, FileSystem.size_setImage] at hnode
  refine ⟨?_, ?_, hfiles, ?_⟩
  · rw [append_of_appender happender, hring, h.image.append hsound h.fits hroom]
    rfl
  · rw [hfiles, FileSystem.image_setImage hnode, Ring.start_placed h.room h.fits, hbegun.image.eq_of_nil]
  · rw [append_of_appender happender, hring, h.image.append hsound h.fits hroom]
    exact find?_bind_self _ _ _

end Abandoned

end Streams

end Session

/-! ## Every record that is abandoned -/

/-- **An abandoned record costs nothing.** On whatever file opens, and whatever has been asked of the handles on it:
from when a record has been begun, and whatever pieces of it are written, until after it has been abandoned or finished
too early, the file keeps what it held when room had been made. Then the record is appended without dropping any other,
and leaves the file, byte by byte, and the handle that appending it in the first place leaves. -/
theorem abandoned_record_costs_nothing {fs : FileSystem} {path : Path} {access : Access} {opened : Handle}
    (hopen : Handle.openRing fs path access = .ok opened) (hfile : (fs.image opened.node).size ≤ Image.maxSize)
    (before : List Session.Request) {s : Session} (hs : s = (Session.run path { files := fs } before).1)
    {name : String} {handle : Handle} (happender : s.appender name = .ok handle) (hsole : s.Sole name) {payload : Bytes}
    (hstart : (s.startWrite name payload.length).2 = .ok ()) {begun last : Session} {requests : List Session.Request}
    {written : Bytes} (hbegun : begun = (s.startWrite name payload.length).1) (hfeeds : begun.Feeds path name requests)
    (hlast : last = (begun.run path requests).1) (hwritten : written = begun.fed path requests) :
    begun.files.Keeps last.files path handle.node handle.capacity
      ∧ (last.Latest name →
        (written.length ≠ payload.length → last.finish = (last.leave, .error (.refused
          ((Refusal.unfinished (payload.length - written.length) payload.length).report (some path)))))
        ∧ ∀ meanwhile later, (last.leave.run path meanwhile).2 = [] → later = (last.leave.run path meanwhile).1 →
          begun.files.Keeps later.files path handle.node handle.capacity
            ∧ (later.find? name = last.leave.find? name → s.Retries begun later name handle.node payload)) := by
  subst hs
  have hrange := (Session.inRange_open hopen hfile).run before
  generalize (Session.run path { files := fs } before).1 = s at *
  rcases hroom : (handle.ring s.files).makeRoom payload.length with ⟨r, stop | ⟨⟩⟩
  · rw [(Session.startWrite_of_no_room hrange happender hroom).1] at hstart
    cases hstart
  · obtain ⟨-, hbegins, happend, hfiles, hfind⟩ := Session.startWrite_of_room hrange happender hsole hroom
    have hhandle := hrange.handles _ (Session.find?_mem (Session.Reflects.appender_ok happender))
    have hcapacity : r.capacity = handle.capacity := by
      have hsame := Ring.same_makeRoom (hrange.sound hhandle) payload.length
      rw [hroom] at hsame
      exact hsame.capacity
    have hspace := Ring.room_of_makeRoom (hrange.sound hhandle) hroom
    subst hbegun hlast hwritten
    have hstreams := hbegins.run hfeeds
    rw [List.nil_append] at hstreams
    rw [← hcapacity]
    refine ⟨hbegins.keeps hspace hstreams rfl, ?_⟩
    intro hlatest
    refine ⟨hstreams.finish_short hlatest, ?_⟩
    rintro meanwhile later hquiet rfl
    obtain ⟨hleft, hfree⟩ := hstreams.leave hlatest
    have hleave : (Session.leave _).InRange path handle.node r.capacity :=
      (hstreams.effect (Session.effect path _ .leave)).1
    have hlater := (hleave.files_of_quiet hquiet).trans hleft
    refine ⟨hbegins.keeps hspace hstreams hlater, ?_⟩
    intro hself
    obtain ⟨haccepted, hdrops, hbytes, hcursor⟩ :=
      hbegins.retries hspace hstreams (Session.access_of_appender happender) hlater (hself.trans hfree)
    exact ⟨haccepted, hdrops, hbytes.trans hfiles.symm, hcursor.trans hfind.symm⟩

/-- the record that is there is dropped to make room for these four bytes -/
def retriedPayload : Bytes := [1, 2, 3, 4]

/-- three bytes of it, which are others, and a reader in between that finds nothing -/
def abandonedRequests : List Session.Request := [.put [9, 9], .record "r", .put [8]]

def retriedSession : Session := (wrappingSession.startWrite "a" retriedPayload.length).1

def abandonedSession : Session := (retriedSession.run FileSystem.singleName abandonedRequests).1

theorem abandoned_record_costs_nothing_wrapping :
    ∃ handle, Handle.openRing wrappingFile FileSystem.singleName .append = .ok handle
      ∧ (wrappingFile.image handle.node).size ≤ Image.maxSize
      ∧ wrappingSession.appender "a" = .ok handle ∧ wrappingSession.Sole "a"
      ∧ (wrappingSession.startWrite "a" retriedPayload.length).2 = .ok ()
      ∧ retriedSession.Feeds FileSystem.singleName "a" abandonedRequests ∧ abandonedSession.Latest "a"
      ∧ retriedSession.files.Keeps abandonedSession.files FileSystem.singleName handle.node handle.capacity
      ∧ (∃ denial, abandonedSession.finish = (abandonedSession.leave, .error denial))
      ∧ wrappingSession.Retries retriedSession abandonedSession.leave "a" handle.node retriedPayload := by
  have hopen : Handle.openRing wrappingFile FileSystem.singleName .append
      = .ok
        { path := FileSystem.singleName, node := 0, access := .append, capacity := 8, cursor := 4 } := by decide +kernel
  have hfile : (wrappingFile.image 0).size ≤ Image.maxSize := by decide
  have hsession : wrappingSession
      = (Session.run FileSystem.singleName { files := wrappingFile } [.openRing "a" .append, .openRing "r" .read]).1 :=
        rfl
  have happender : wrappingSession.appender "a"
      = .ok
        { path := FileSystem.singleName, node := 0, access := .append, capacity := 8, cursor := 4 } := by decide +kernel
  have hsole : wrappingSession.Sole "a" := by decide +kernel
  have hstart : (wrappingSession.startWrite "a" retriedPayload.length).2 = .ok () := by decide +kernel
  have hfeeds : retriedSession.Feeds FileSystem.singleName "a" abandonedRequests := by decide +kernel
  have hlatest : abandonedSession.Latest "a" := by decide +kernel
  have hshort : (retriedSession.fed FileSystem.singleName abandonedRequests).length
      ≠ retriedPayload.length := by decide +kernel
  have hbegun : retriedSession = (wrappingSession.startWrite "a" retriedPayload.length).1 := by rw [retriedSession]
  have hlast : abandonedSession
      = (retriedSession.run FileSystem.singleName abandonedRequests).1 := by rw [abandonedSession]
  have hidle : ∀ t : Session, t.run FileSystem.singleName [] = (t, []) := fun t => by rw [Session.run]
  obtain ⟨hkeeps, hall⟩ :=
    abandoned_record_costs_nothing hopen hfile _ hsession happender hsole hstart hbegun hfeeds hlast rfl
  obtain ⟨hfinish, hretries⟩ := hall hlatest
  obtain ⟨-, hretry⟩ := hretries [] abandonedSession.leave (by rw [hidle]) (by rw [hidle])
  exact ⟨_, hopen, hfile, happender, hsole, hstart, hfeeds, hlatest, hkeeps, ⟨_, hfinish hshort⟩, hretry rfl⟩

/-- a record of two bytes behind a prefix of three, two of which are not needed: all of it lies past the stop offset -/
def hangingFile : FileSystem := .single 0 3 [0x82, 0x80, 0x00, 0xAA, 0xBB, 0xFF, 0xFF, 0xFF]

def hangingSession : Session := (Session.run FileSystem.singleName { files := hangingFile } [.openRing "a" .append]).1

def hangingBegun : Session := (hangingSession.startWrite "a" 1).1

def hangingLast : Session := (hangingBegun.run FileSystem.singleName [.put [1]]).1

/-- a piece of the new record goes to bytes that a reader takes for the old one -/
theorem abandoned_record_is_read :
    Handle.openRing hangingFile FileSystem.singleName .append = .ok singleHandle
      ∧ (hangingFile.image singleHandle.node).size ≤ Image.maxSize
      ∧ hangingSession.appender "a" = .ok singleHandle ∧ hangingSession.Sole "a"
      ∧ (hangingSession.startWrite "a" 1).2 = .ok () ∧ hangingBegun.Feeds FileSystem.singleName "a" [.put [1]]
      ∧ hangingLast.Latest "a" ∧ hangingBegun.files = hangingFile
      ∧ hangingBegun.files.scan FileSystem.singleName 1 = .ok ([[0xAA, 0xBB]], .enough)
      ∧ hangingLast.leave.files.scan FileSystem.singleName 1 = .ok ([[0xAA, 0x01]], .enough) := by
  decide +kernel

end CircularLog
