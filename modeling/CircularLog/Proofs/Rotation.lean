/-
Turning a file, the cursors of its handles and the records in pieces by `k` bytes changes nothing that anyone can see,
but for the offsets: where a frame, a payload or a transfer runs over the end of the data is a matter of where the data
happen to begin.

- `Session.turned`: a session on the turned file.
- `Session.rotation`: it is beside the one on the file itself.
- `rotation_changes_offsets_only`: any number of requests.
-/
import CircularLog.Proofs.SideBySide
import CircularLog.Proofs.Turning

namespace CircularLog

/-! ## What a caller is given -/

/-- the same report, of something that is found `k` bytes further on -/
def Report.turned (capacity k : Nat) (report : Report) : Report :=
  { report with offset := report.offset.map (Circle.turn capacity k) }

def Denial.turned (capacity k : Nat) : Denial → Denial
  | .refused report => .refused (report.turned capacity k)
  | denial => denial

/-- the value as `f` has it, or the same denial -/
def Reply.turned {α β : Type} (capacity k : Nat) (f : α → β) : Reply α → Reply β
  | .ok a => .ok (f a)
  | .error denial => .error (denial.turned capacity k)

section Reply

variable {α β : Type} (capacity k : Nat)

theorem report_turned (refusal : Refusal) (path : Option Path) :
    (refusal.turned capacity k).report path = (refusal.report path).turned capacity k := by
  cases refusal <;> rfl

theorem reply_turned (f : α → β) (result : Outcome α) (path : Path) :
    (Outcome.turned capacity k f result).reply path = Reply.turned capacity k f (result.reply path) := by
  rcases result with ⟨refusal | fault⟩ | a
  · exact congrArg (fun report => Except.error (Denial.refused report)) (report_turned capacity k refusal (some path))
  · rfl
  · rfl

end Reply

/-! ## Sessions -/

namespace Session

/-- the session on the turned file: each cursor and each record in pieces is turned with it -/
def turned (s : Session) (node capacity k : Nat) : Session where
  files := s.files.setImage node ((s.files.image node).turned capacity k)
  handles := s.handles.map fun entry => (entry.1, entry.2.moved (Circle.turn capacity k))
  loans := s.loans.map (Loan.moved (Circle.turn capacity k) (Stream.turned capacity k))

/-- the pairing of a session with the one on the turned file -/
def rotation (capacity k : Nat) : Pairing capacity where
  place := Circle.turn capacity k
  piece := Stream.turned capacity k
  alike image other := other = image.turned capacity k
  heard reply other := other = Reply.turned capacity k id reply
  opens := by
    rintro image _ rfl hopens
    exact ⟨hopens.turned k, hopens.start_turned k⟩
  done := rfl
  unknown := rfl
  reader := rfl

section Rotation

variable {s t : Session} {path : Path} {node capacity k : Nat} {name : String} {handle : Handle} {was : Option Stream}
  {rest : List Loan} {request : Request}

theorem beside_iff : (rotation capacity k).Beside node s t ↔ t = s.turned node capacity k := by
  constructor
  · rintro ⟨_, rfl, rfl⟩
    rfl
  · rintro rfl
    exact ⟨_, rfl, rfl⟩

/-- on the ring of each handle, a request does what it does on the turned one -/
theorem InRange.acts_turned (h : s.InRange path node capacity) (howner : s.Owner name handle was rest) :
    (rotation capacity k).Acts path (request.act (handle.ring s.files) was)
      (request.act ((rotation capacity k).ring ((s.files.image node).turned capacity k) (handle.ring s.files))
        (was.map (rotation capacity k).piece)) := by
  obtain ⟨hhandle, -⟩ := howner.based h.toBased
  have hsound := h.sound hhandle
  have hcapacity : (handle.ring s.files).capacity = capacity := hhandle.capacity_eq
  have hring : (rotation capacity k).ring ((s.files.image node).turned capacity k) (handle.ring s.files)
      = (handle.ring s.files).turned k := by
    rw [Reflects.ring_eq hhandle]
    rfl
  have hact := Ring.act_turned hsound k (hcapacity.symm ▸ h.stream howner) request
  rw [hcapacity] at hact
  rw [hring]
  cases hacted : request.act (handle.ring s.files) was with
  | none =>
    rw [hacted] at hact
    exact hact ▸ .none
  | some found =>
    obtain ⟨next, now, result⟩ := found
    have hsafe := Ring.safe_of_act hsound (hcapacity.symm ▸ h.stream howner) hacted
    have hnext := hsafe.capacity.trans hcapacity
    rw [hacted] at hact
    refine hact ▸ .some ?_ ?_ (reply_turned capacity k id result path)
    · rw [Ring.cursor_turned, hnext]
      rfl
    · rw [Ring.image_turned, hnext]
      rfl

theorem InRange.serve_turned (h : s.InRange path node capacity) (k : Nat) (request : Request) :
    ((s.turned node capacity k).serve path request).1 = (s.serve path request).1.turned node capacity k
      ∧ (s.turned node capacity k).answer path request = Reply.turned capacity k id (s.answer path request) := by
  have hbeside : (rotation capacity k).Beside node s (s.turned node capacity k) := beside_iff.2 rfl
  have hlike : request.Like (fun _ _ => True) request := .same request
  have hboth := Pairing.serve h hbeside hlike fun image halike _ name handle was rest howner => by
    obtain rfl : image = _ := halike
    exact h.acts_turned howner
  exact ⟨beside_iff.1 hboth.1, hboth.2⟩

theorem InRange.run_turned (h : s.InRange path node capacity) (k : Nat) (requests : List Request) :
    ((s.turned node capacity k).run path requests).1 = (s.run path requests).1.turned node capacity k
      ∧ (s.turned node capacity k).answers path requests
        = (s.answers path requests).map (Reply.turned capacity k id) := by
  induction requests generalizing s with
  | nil => exact ⟨rfl, rfl⟩
  | cons request requests ih =>
    obtain ⟨hserve, hanswer⟩ := h.serve_turned k request
    obtain ⟨hrun, hanswers⟩ := ih (h.effect (s.effect path request)).1
    simp only [Session.run, answers, List.map_cons, hserve, hanswer]
    exact ⟨hrun, congrArg _ hanswers⟩

/-- what the ring under a name is asked -/
theorem InRange.query_turned {α β : Type} (h : s.InRange path node capacity) (name : String) {ask : Ring → Outcome α}
    {ask' : Ring → Outcome β} {f : α → β}
    (hask : ∀ r : Ring, r.Sound → r.capacity = capacity → ask' (r.turned k) = Outcome.turned capacity k f (ask r)) :
    (s.turned node capacity k).query name ask' = Reply.turned capacity k f (s.query name ask) := by
  have hfind : (s.turned node capacity k).find? name = (s.find? name).map (Handle.moved (Circle.turn capacity k)) :=
    (rotation capacity k).find?_recast node _ s name
  simp only [query]
  cases hfound : s.find? name with
  | none =>
    rw [hfound] at hfind
    rw [hfind]
    rfl
  | some handle =>
    have hhandle := h.handles _ (find?_mem hfound)
    have hring : (handle.moved (Circle.turn capacity k)).ring (s.turned node capacity k).files
        = (handle.ring s.files).turned k := by
      have hrecast :=
        (rotation capacity k).ring_recast node ((s.files.image node).turned capacity k) s h.node_lt hhandle.node_eq
      refine hrecast.trans ?_
      rw [Reflects.ring_eq hhandle]
      rfl
    rw [hfound] at hfind
    simp only [hfind, Option.map_some, hring]
    rw [hask _ (h.sound hhandle) hhandle.capacity_eq]
    exact reply_turned capacity k f _ _

end Rotation

end Session

/-- **Turning changes the offsets and nothing else.** Any number of handles are on a file with any data, and both
offsets and every cursor lie on its circle; some of the handles may be lent out in the middle of a record. Turn the
data, the offsets, the cursors and the places of these records by `k` bytes. Whatever is asked then, in any order, is
answered as it would have been without the turn: with the same value, or with the same denial of something that is found
`k` bytes further on. What is left is what would have been left, turned; the same bytes are used and free, and the next
record is as long. -/
theorem rotation_changes_offsets_only {s : Session} {path : Path} {node capacity : Nat}
    (h : s.InRange path node capacity) (k : Nat) (requests : List Session.Request) :
    (s.turned node capacity k).answers path requests = (s.answers path requests).map (Reply.turned capacity k id)
      ∧ ((s.turned node capacity k).run path requests).1 = (s.run path requests).1.turned node capacity k
      ∧ ∀ name,
        ((s.turned node capacity k).run path requests).1.query name Ring.usage
          = Reply.turned capacity k (Usage.turned capacity k) ((s.run path requests).1.query name Ring.usage)
        ∧ ((s.turned node capacity k).run path requests).1.query name Ring.nextSize
          = Reply.turned capacity k id ((s.run path requests).1.query name Ring.nextSize) := by
  obtain ⟨hrun, hanswers⟩ := h.run_turned k requests
  refine ⟨hanswers, hrun, fun name => ?_⟩
  rw [hrun]
  constructor
  · apply (h.run requests).query_turned
    rintro r hsound rfl
    exact Ring.usage_turned hsound.toOpens k
  · apply (h.run requests).query_turned
    rintro r hsound rfl
    exact Ring.nextSize_turned hsound k

/-- the file of `wrappingFile`, turned by three bytes: now it is the first record that runs over the end of the data -/
def wrappingTurned : FileSystem := .single 7 2 [0xAA, 0xBB, 0xFF, 0xFF, 0xFF, 0xFF, 0xFF, 0x02]

/-- a buffer is too small for the first record; the second one is written in pieces, and a third one drops the first -/
def turningRequests : List Session.Request :=
  [.read "r" [0], .startWrite "a" 3, .put [1], .record "r", .put [2, 3], .finish, .append "a" [4, 5], .record "r"]

theorem rotation_changes_offsets_only_wrapping :
    wrappingSession.InRange FileSystem.singleName 0 8
      ∧ (wrappingSession.turned 0 8 3).files = wrappingTurned
      ∧ wrappingSession.answers FileSystem.singleName [.read "r" [0]]
        = [.error (.refused ((Refusal.bufferTooSmall 4 2).report (some FileSystem.singleName)))]
      ∧ (wrappingSession.turned 0 8 3).answers FileSystem.singleName turningRequests
        = [.error (.refused ((Refusal.bufferTooSmall 7 2).report (some FileSystem.singleName))), .ok .done, .ok .done,
          .ok (.record (some [0xAA, 0xBB])), .ok .done, .ok .done, .ok .done, .ok (.record (some [1, 2, 3]))]
      ∧ ((wrappingSession.turned 0 8 3).run FileSystem.singleName turningRequests).1.files
        = .single 2 1 [0x05, 0xBB, 0x03, 0x01, 0x02, 0x03, 0x02, 0x04] := by
  have hopen : Handle.openRing wrappingFile FileSystem.singleName .append
      = .ok
        { path := FileSystem.singleName, node := 0, access := .append, capacity := 8, cursor := 4 } := by decide +kernel
  have hfile : (wrappingFile.image 0).size ≤ Image.maxSize := by decide
  have hrange : wrappingSession.InRange FileSystem.singleName 0 8 := (Session.inRange_open hopen hfile).run _
  obtain ⟨hanswers, hrun, -⟩ := rotation_changes_offsets_only hrange 3 turningRequests
  rw [hanswers, hrun]
  exact ⟨hrange, by decide +kernel, by decide +kernel, by decide +kernel, by decide +kernel⟩

end CircularLog
