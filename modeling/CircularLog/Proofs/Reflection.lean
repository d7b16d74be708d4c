/-
What a session stands for: the handles are on one file, the file holds the records of a queue, and the writer that is
lent out, if there is one, is the queue's pending record. Whatever reads leaves that as it is.

- `Session.Reflects`: the invariant.
- `Session.Reflects.of_files`: it is about the file and the writers alone.
- `Session.Based.save`: it holds again, of another queue, when a file is saved that holds that queue's records.
-/
import CircularLog.Proofs.Creating
import CircularLog.Proofs.Draining
import CircularLog.Proofs.Requests
import CircularLog.Proofs.Writing

namespace CircularLog

/-! ## Reading leaves the bytes alone -/

theorem Circle.advance_lt {capacity offset count place : Nat} (hpos : 0 < capacity)
    (h : advance capacity offset count = .ok place) : place < capacity := by
  obtain ⟨sum, -, hmod⟩ := bind_eq_ok h
  rw [Word.mod_eq_ok (Nat.ne_of_gt hpos)] at hmod
  exact Except.ok.inj hmod ▸ Nat.mod_lt _ hpos

namespace Ring

section Keeps

variable {r r₁ : Ring} {frame : Frame}

theorem skip_keeps (hpos : 0 < r.capacity) (h : r.skip frame = .ok r₁) :
    ∃ cursor, cursor < r.capacity ∧ r₁ = { r with cursor } := by
  obtain ⟨place, hadvance, hring⟩ := bind_eq_ok h
  exact ⟨place, Circle.advance_lt hpos hadvance, (Except.ok.inj hring).symm⟩

theorem after_keeps {α : Type} (h : r.Sound) {result : Outcome (Ring × α)}
    (hresult : ∀ r₁ a, result = .ok (r₁, a) → ∃ cursor, cursor < r.capacity ∧ r₁ = { r with cursor }) :
    ∃ cursor, cursor < r.capacity ∧ (r.after result).1 = { r with cursor } := by
  cases result with
  | error stop => exact ⟨r.cursor, h.cursor_lt, rfl⟩
  | ok pair => exact hresult pair.1 pair.2 rfl

theorem record_keeps (h : r.Sound) : ∃ cursor, cursor < r.capacity ∧ (r.after r.record).1 = { r with cursor } := by
  rcases record_cases h with hnone | ⟨refusal, hrefused⟩ | ⟨frame, payload, -, -, hrecord⟩
  · rw [hnone]
    exact ⟨r.cursor, h.cursor_lt, rfl⟩
  · rw [hrefused]
    exact ⟨r.cursor, h.cursor_lt, rfl⟩
  · rw [hrecord]
    exact ⟨_, Nat.mod_lt _ h.pos, rfl⟩

theorem read_keeps (h : r.Sound) (buffer : Bytes) :
    ∃ cursor, cursor < r.capacity ∧ (r.after (r.read buffer).2).1 = { r with cursor } := by
  apply after_keeps h
  intro r₁ length hread
  cases hnext : r.next with
  | error stop => simp [read, hnext] at hread
  | ok found =>
    cases found with
    | none =>
      simp only [read, hnext, Except.ok.injEq, Prod.mk.injEq] at hread
      exact ⟨r.cursor, h.cursor_lt, hread.1.symm⟩
    | some frame =>
      by_cases hsmall : buffer.length < frame.payload
      · simp [read, hnext, hsmall, refuse] at hread
      · simp only [read, hnext, if_neg hsmall] at hread
        obtain ⟨-, -, hread⟩ := bind_eq_ok hread
        obtain ⟨passed, hskip, hpassed⟩ := bind_eq_ok hread
        obtain ⟨rfl, -⟩ := Prod.mk.inj (Except.ok.inj hpassed)
        exact skip_keeps h.pos hskip

theorem finish_keeps {reader : Reader} (h : r.Sound) (hfinish : reader.finish r = .ok r₁) :
    ∃ cursor, cursor < r.capacity ∧ r₁ = { r with cursor } := by
  obtain ⟨passed, hskip, hplaced⟩ := bind_eq_ok hfinish
  obtain ⟨cursor, -, rfl⟩ := skip_keeps h.pos hskip
  obtain ⟨place, hmod, hring⟩ := bind_eq_ok hplaced
  rw [Word.mod_eq_ok (Nat.ne_of_gt h.pos)] at hmod
  obtain rfl := Except.ok.inj hmod
  exact ⟨cursor % r.capacity, Nat.mod_lt _ h.pos, (Except.ok.inj hring).symm⟩

end Keeps

end Ring

/-! ## What a session stands for -/

namespace Queue

/-- the ring holds the records and the bytes of the record that is being written -/
def On (q : Queue) (r : Ring) : Prop :=
  match q.pending with
  | none => r.Holds q.records
  | some (total, written) => r.Writes q.records total written

/-- the writer of the pending record -/
def writers (q : Queue) (r : Ring) : List Writer :=
  match q.pending with
  | none => []
  | some (total, written) => [Writer.behind r total written]

theorem length_writers_le (q : Queue) (r : Ring) : (q.writers r).length ≤ 1 := by
  rcases q with ⟨records, _ | ⟨total, written⟩⟩
  · exact Nat.zero_le _
  · exact le_rfl

theorem On.holds {q : Queue} {r : Ring} (h : q.On r) : r.Holds q.records := by
  rcases q with ⟨records, _ | ⟨total, written⟩⟩
  · exact h
  · exact Ring.Writes.toHolds h

/-- where the cursor is does not matter -/
theorem On.seek {q : Queue} {r : Ring} {cursor : Nat} (h : q.On r) (hcursor : cursor < r.capacity) :
    q.On { r with cursor } := by
  have hholds : Ring.Holds { r with cursor } q.records := ⟨⟨h.holds.toOpens, hcursor⟩, h.holds.lies⟩
  rcases q with ⟨records, _ | ⟨total, written⟩⟩
  · exact hholds
  · have hwrites : r.Writes records total written := h
    exact ⟨hholds, hwrites.fits, hwrites.written_le, hwrites.laid⟩

end Queue

/-- a handle on the file, with its cursor on the circle -/
structure Handle.At (handle : Handle) (path : Path) (node capacity : Nat) : Prop where
  path_eq : handle.path = path
  node_eq : handle.node = node
  capacity_eq : handle.capacity = capacity
  cursor_lt : handle.cursor < capacity

namespace Session

/-- the ring in the file, for a handle before its first byte -/
def ringAt (s : Session) (node capacity : Nat) : Ring := { image := s.files.image node, capacity, cursor := 0 }

/-- the path leads to the file, and every handle is on it -/
structure Based (s : Session) (path : Path) (node capacity : Nat) : Prop where
  lookup : ∃ place, s.files.lookup path = .ok (place, .file node)
  node_lt : node < s.files.images.size
  handles : ∀ entry ∈ s.handles, entry.2.At path node capacity
  loans : ∀ loan ∈ s.loans, loan.handle.At path node capacity

/-- and the file holds what the queue holds -/
structure Reflects (s : Session) (path : Path) (node capacity : Nat) (q : Queue) : Prop extends
    s.Based path node capacity where
  content : q.On (s.ringAt node capacity)
  writers_eq : s.writers = q.writers (s.ringAt node capacity)

section Reflects

variable {s s' : Session} {path : Path} {node capacity cursor : Nat} {q : Queue} {name : String} {handle : Handle}
  {entry : String × Handle} {loan : Loan} {r : Ring}

theorem handles_bind (h : ∀ entry ∈ s.handles, entry.2.At path node capacity) (hhandle : handle.At path node capacity) :
    ∀ entry ∈ (s.bind name handle).handles, entry.2.At path node capacity := by
  intro entry hentry
  rcases List.mem_cons.1 hentry with rfl | hentry
  · exact hhandle
  · exact h entry (List.mem_of_mem_filter hentry)

theorem handles_release (h : ∀ entry ∈ s.handles, entry.2.At path node capacity) :
    ∀ entry ∈ (s.release name).handles, entry.2.At path node capacity := by
  intro entry hentry
  exact h entry (List.mem_of_mem_filter hentry)

theorem writers_save (s : Session) (name : String) (handle : Handle) (r : Ring) :
    (s.save name handle r).writers = s.writers := rfl

theorem writers_lend (s : Session) (name : String) (handle : Handle) (writer : Writer) :
    (s.lend { name, handle, stream := .writing writer }).writers = writer :: s.writers := rfl

theorem find?_mem (h : s.find? name = some handle) : (name, handle) ∈ s.handles := by
  obtain ⟨entry, hentry, rfl⟩ := Option.map_eq_some_iff.1 h
  have hname : entry.1 = name := by simpa using List.find?_some hentry
  have hmem := List.mem_of_find?_eq_some hentry
  rwa [← hname]

/-- the file has been given bytes that hold what the queue holds -/
theorem Based.reflects (h : s.Based path node capacity) (image : Image)
    (hfiles : s'.files = s.files.setImage node image) (hhandles : ∀ entry ∈ s'.handles, entry.2.At path node capacity)
    (hloans : ∀ loan ∈ s'.loans, loan.handle.At path node capacity)
    (hon : q.On { image, capacity, cursor := 0 }) (hwriters : s'.writers = q.writers { image, capacity, cursor := 0 }) :
    s'.Reflects path node capacity q := by
  have hring : s'.ringAt node capacity = { image, capacity, cursor := 0 } := by
    rw [ringAt, hfiles, FileSystem.image_setImage h.node_lt]
  exact
    { lookup := by
        rw [hfiles, FileSystem.lookup_setImage]
        exact h.lookup
      node_lt := by
        rw [hfiles, FileSystem.size_setImage]
        exact h.node_lt
      handles := hhandles
      loans := hloans
      content := hring ▸ hon
      writers_eq := hring ▸ hwriters }

theorem Based.save (h : s.Based path node capacity) (hhandle : handle.At path node capacity)
    (hcapacity : r.capacity = capacity) (hon : q.On r) (hwriters : s.writers = q.writers r) :
    (s.save name handle r).Reflects path node capacity q := by
  subst hcapacity
  have hcursor := hon.holds.cursor_lt
  refine h.reflects r.image ?_ ?_ h.loans (hon.seek hon.holds.pos) hwriters
  · simp only [Session.save, Ring.save, Session.bind, Session.release, hhandle.node_eq]
  · exact handles_bind (s := { s with files := s.files.setImage handle.node r.image }) h.handles
      ⟨hhandle.path_eq, hhandle.node_eq, hhandle.capacity_eq, hcursor⟩

namespace Reflects

theorem holds (h : s.Reflects path node capacity q) (hcursor : cursor < capacity) :
    ({ image := s.files.image node, capacity, cursor } : Ring).Holds q.records :=
  ⟨⟨h.content.holds.toOpens, hcursor⟩, h.content.holds.lies⟩

/-- what a handle on the file sees -/
theorem ring_eq (hhandle : handle.At path node capacity) :
    handle.ring s.files = { image := s.files.image node, capacity, cursor := handle.cursor } := by
  rw [Handle.ring, hhandle.node_eq, hhandle.capacity_eq]

theorem ring_holds (h : s.Reflects path node capacity q) (hhandle : handle.At path node capacity) :
    (handle.ring s.files).Holds q.records := by
  rw [ring_eq hhandle]
  exact h.holds hhandle.cursor_lt

theorem sound (h : s.Reflects path node capacity q) (hhandle : handle.At path node capacity) :
    (handle.ring s.files).Sound :=
  (h.ring_holds hhandle).toSound

theorem find? (h : s.Reflects path node capacity q) (hfind : s.find? name = some handle) :
    handle.At path node capacity :=
  h.handles _ (find?_mem hfind)

/-- nothing but the handles and the readers has changed -/
theorem of_files (h : s.Reflects path node capacity q) (hfiles : s'.files = s.files)
    (hhandles : ∀ entry ∈ s'.handles, entry.2.At path node capacity)
    (hloans : ∀ loan ∈ s'.loans, loan.handle.At path node capacity) (hwriters : s'.writers = s.writers) :
    s'.Reflects path node capacity q := by
  have hring : s'.ringAt node capacity = s.ringAt node capacity := by rw [ringAt, ringAt, hfiles]
  exact
    { lookup := hfiles ▸ h.lookup
      node_lt := hfiles ▸ h.node_lt
      handles := hhandles
      loans := hloans
      content := hring ▸ h.content
      writers_eq := hring ▸ hwriters.trans h.writers_eq }

theorem bind (h : s.Reflects path node capacity q) (hhandle : handle.At path node capacity) :
    (s.bind name handle).Reflects path node capacity q :=
  h.of_files rfl (handles_bind h.handles hhandle) h.loans rfl

theorem release (h : s.Reflects path node capacity q) : (s.release name).Reflects path node capacity q :=
  h.of_files rfl (handles_release h.handles) h.loans rfl

/-- a ring with the same bytes and another cursor is saved -/
theorem save_cursor (h : s.Reflects path node capacity q) (hhandle : handle.At path node capacity)
    (hcursor : cursor < capacity) :
    (s.save name handle { handle.ring s.files with cursor }).Reflects path node capacity q := by
  have hfiles : s.files.setImage handle.node (handle.ring s.files).image = s.files :=
    FileSystem.setImage_image s.files handle.node
  have hsave : s.save name handle { handle.ring s.files with cursor } = s.bind name { handle with cursor } := by
    simp only [Session.save, Ring.save, hfiles]
  rw [hsave]
  exact h.bind ⟨hhandle.path_eq, hhandle.node_eq, hhandle.capacity_eq, hcursor⟩

/-! ## Reading -/

theorem openRing (h : s.Reflects path node capacity q) (name : String) (access : Access) :
    (s.openRing name path access).1.Reflects path node capacity q := by
  obtain ⟨place, hlookup⟩ := h.lookup
  have hopens : (s.files.image node).Opens capacity := h.content.holds.toOpens
  obtain ⟨handle, hopen, hpath, hnode, hcapacity, hcursor⟩ := Handle.openRing_at hlookup hopens access
  rw [Session.openRing, hopen]
  exact h.bind ⟨hpath, hnode, hcapacity, hcursor.trans_lt hopens.start_lt⟩

theorem close (h : s.Reflects path node capacity q) (name : String) :
    (s.close name).1.Reflects path node capacity q := by
  unfold Session.close
  split
  · exact h
  · exact h.release

/-- an operation that moves no more than the cursor -/
theorem change {α : Type} (h : s.Reflects path node capacity q) (name : String) {f : Ring → Ring × Outcome α}
    (hkeeps : ∀ r : Ring, r.Sound → ∃ cursor, cursor < r.capacity ∧ (f r).1 = { r with cursor }) :
    (s.change name f).1.Reflects path node capacity q := by
  unfold Session.change
  split
  · exact h
  · rename_i handle hfind
    have hhandle := h.find? hfind
    obtain ⟨cursor, hcursor, hring⟩ := hkeeps _ (h.sound hhandle)
    simp only [hring]
    rw [ring_eq hhandle] at hcursor
    exact h.save_cursor hhandle hcursor

theorem read (h : s.Reflects path node capacity q) (name : String) (buffer : Bytes) :
    (s.read name buffer).1.Reflects path node capacity q := by
  unfold Session.read
  split
  · exact h
  · rename_i handle hfind
    have hhandle := h.find? hfind
    obtain ⟨cursor, hcursor, hring⟩ := Ring.read_keeps (h.sound hhandle) buffer
    simp only [hring]
    rw [ring_eq hhandle] at hcursor
    exact h.save_cursor hhandle hcursor

theorem startRead (h : s.Reflects path node capacity q) (name : String) :
    (s.startRead name).1.Reflects path node capacity q := by
  unfold Session.startRead
  split
  · exact h
  · rename_i handle hfind
    split
    · exact h
    · exact h
    · refine h.of_files rfl (handles_release h.handles) ?_ rfl
      intro loan hloan
      rcases List.mem_cons.1 hloan with rfl | hloan
      · exact h.find? hfind
      · exact h.loans loan hloan

/-- the loans are the same, in another order -/
theorem turn (h : s.Reflects path node capacity q) (index : Nat) : (s.turn index).Reflects path node capacity q := by
  unfold Session.turn
  split
  · exact h
  · rename_i loan hloan
    obtain ⟨hindex, rfl⟩ := List.getElem?_eq_some_iff.1 hloan
    have hperm : (s.loans[index] :: s.loans.eraseIdx index).Perm s.loans := List.getElem_cons_eraseIdx_perm hindex
    have hloans : ∀ loan ∈ s.loans[index] :: s.loans.eraseIdx index, loan.handle.At path node capacity := by
      intro loan hmem
      exact h.loans loan (hperm.mem_iff.1 hmem)
    refine h.of_files rfl h.handles hloans ?_
    have hwriters : ((s.loans[index] :: s.loans.eraseIdx index).filterMap (·.stream.writer?)).Perm s.writers :=
      hperm.filterMap _
    -- there is at most one writer, and so the order does not matter
    have hfew : s.writers.length ≤ 1 := by
      rw [h.writers_eq]
      exact q.length_writers_le _
    rcases hlist : s.writers with _ | ⟨writer, _ | _⟩
    · exact List.Perm.eq_nil (hlist ▸ hwriters)
    · exact List.perm_singleton.1 (hlist ▸ hwriters)
    · simp [hlist] at hfew

theorem set_reader (h : s.Reflects path node capacity q) {reader next : Reader} {rest : List Loan}
    (hloans : s.loans = { name, handle, stream := .reading reader } :: rest) :
    ({ s with loans := { name, handle, stream := .reading next } :: rest } : Session).Reflects path node
      capacity q := by
  have hall := h.loans
  rw [hloans, List.forall_mem_cons] at hall
  refine h.of_files rfl h.handles (List.forall_mem_cons.2 hall) ?_
  rw [writers, writers, hloans]
  rfl

theorem take (h : s.Reflects path node capacity q) (length : Nat) :
    (s.take length).1.Reflects path node capacity q := by
  unfold Session.take
  split
  · rename_i hloans
    split
    · exact h
    · exact h.set_reader hloans
  · exact h

theorem readOn {α : Type} (h : s.Reflects path node capacity q) (f : Reader → Ring → Reader × Outcome α) :
    (s.readOn f).1.Reflects path node capacity q := by
  unfold Session.readOn
  split
  · rename_i hloans
    exact h.set_reader hloans
  · exact h

end Reflects

end Reflects

end Session

end CircularLog
