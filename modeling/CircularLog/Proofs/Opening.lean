/-
Which files open, and what a handle is when it is opened.

- `Handle.openRing_eq_ok`: a path that leads to a file with `Image.Opens` opens, in either mode, at the start offset.
- `Handle.of_openRing`: nothing else opens; a handle that was opened sees a sound ring.
-/
import CircularLog.Handle
import CircularLog.Proofs.Step

namespace CircularLog

/-! ## The control block of a file -/

namespace Image

theorem slice_head (image : Image) : image.slice 0 ControlBlock.size = image.head := by
  rw [slice_eq, List.drop_zero, head]

theorem length_head {image : Image} (h : ControlBlock.size ≤ image.size) : image.head.length = ControlBlock.size := by
  rw [head, List.length_take, length_toBytes, Nat.min_eq_left h]

theorem mark_head (image : Image) :
    image.head.take ControlBlock.mark.length = image.toBytes.take ControlBlock.mark.length := by
  rw [head, List.take_take]
  rfl

theorem decode_head {image : Image} (h : ControlBlock.size ≤ image.size) :
    ControlBlock.decode image.head
      = if image.toBytes.take ControlBlock.mark.length ≠ ControlBlock.mark then refuse .badMagic
        else .ok image.control := by
  have hflags : image.flags = ControlBlock.field image.head ControlBlock.flagsPosition 4 := number_eq image (by decide)
  have hstart : image.start = ControlBlock.field image.head ControlBlock.startPosition 8 := number_eq image (by decide)
  have hstop : image.stop = ControlBlock.field image.head ControlBlock.stopPosition 8 := number_eq image (by decide)
  rw [ControlBlock.decode, length_head h, if_neg (lt_irrefl _), mark_head, control, hflags, hstart, hstop]

theorem start_control (image : Image) : image.control.start.toNat = image.start :=
  Nat.mod_eq_of_lt image.start_lt

theorem stop_control (image : Image) : image.control.stop.toNat = image.stop :=
  Nat.mod_eq_of_lt image.stop_lt

end Image

/-- a file that opens is one of the files -/
theorem FileSystem.node_lt_of_opens {fs : FileSystem} {node capacity : Nat} (h : (fs.image node).Opens capacity) :
    node < fs.images.size := by
  by_contra hmissing
  have hnone : fs.image node = .empty := by simp [FileSystem.image, hmissing]
  have hsize := h.size
  rw [hnone] at hsize
  have hzero : Image.empty.size = 0 := rfl
  have hpos := h.pos
  omega

namespace Handle

variable {fs fs' : FileSystem} {path : Path} {place : Place} {node capacity : Nat} {access : Access} {handle : Handle}

/-! ## Opening a file -/

theorem openFile_eq (hlookup : fs.lookup path = .ok (place, .file node)) :
    openFile fs path access
      = if (fs.image node).size ≤ ControlBlock.size then refuse (.fileTooShort (fs.image node).size)
        else if (fs.image node).toBytes.take ControlBlock.mark.length ≠ ControlBlock.mark then refuse .badMagic
        else if (fs.image node).size - ControlBlock.size ≤ (fs.image node).start then
          refuse (.startOutOfRange (fs.image node).start)
        else if (fs.image node).size - ControlBlock.size ≤ (fs.image node).stop then
          refuse (.stopOutOfRange (fs.image node).stop)
        else .ok (node, (fs.image node).size - ControlBlock.size) := by
  simp only [openFile, hlookup]
  by_cases hsize : (fs.image node).size ≤ ControlBlock.size
  · simp only [if_pos hsize, refuse, bind, Except.bind]
  · simp only [if_neg hsize, bind, Except.bind, pure, Except.pure, Image.slice_head,
      Image.decode_head (Nat.le_of_not_le hsize), ControlBlock.validate]
    by_cases hmark : (fs.image node).toBytes.take ControlBlock.mark.length ≠ ControlBlock.mark
    · simp only [if_pos hmark, refuse]
    simp only [if_neg hmark, Image.start_control, Image.stop_control]
    by_cases hstart : (fs.image node).size - ControlBlock.size ≤ (fs.image node).start
    · simp only [if_pos hstart, refuse]
    simp only [if_neg hstart]
    by_cases hstop : (fs.image node).size - ControlBlock.size ≤ (fs.image node).stop
    · simp only [if_pos hstop, refuse]
    · simp only [if_neg hstop]

theorem openRing_eq_ok (hlookup : fs.lookup path = .ok (place, .file node)) (h : (fs.image node).Opens capacity)
    (access : Access) :
    openRing fs path access = .ok { path, node, access, capacity, cursor := (fs.image node).start } := by
  have hcapacity : (fs.image node).size - ControlBlock.size = capacity := by
    rw [h.size]
    omega
  have hlong : ¬(fs.image node).size ≤ ControlBlock.size := by
    have := h.size
    have := h.pos
    omega
  rw [openRing, openFile_eq hlookup, if_neg hlong, if_neg (not_not.2 h.marked), hcapacity,
    if_neg (by have := h.start_lt; omega), if_neg (by have := h.stop_lt; omega)]
  rfl

/-- the handle and what it is; its fields are given one by one, so that nothing has to compute the start offset -/
theorem openRing_at (hlookup : fs.lookup path = .ok (place, .file node)) (h : (fs.image node).Opens capacity)
    (access : Access) :
    ∃ handle, openRing fs path access = .ok handle ∧ handle.path = path ∧ handle.node = node
      ∧ handle.capacity = capacity ∧ handle.cursor = (fs.image node).start := by
  refine ⟨_, openRing_eq_ok hlookup h access, ?_, ?_, ?_, ?_⟩
  all_goals simp only

theorem of_openRing (h : openRing fs path access = .ok handle) (hfile : (fs.image handle.node).size ≤ Image.maxSize) :
    (∃ place, fs.lookup path = .ok (place, .file handle.node)) ∧ (fs.image handle.node).Opens handle.capacity
      ∧ handle = { path, node := handle.node, access, capacity := handle.capacity
                   cursor := (fs.image handle.node).start } := by
  rcases hlookup : fs.lookup path with cause | ⟨place, ⟨⟩ | node⟩
  · simp [openRing, openFile, hlookup, refuse, bind, Except.bind] at h
  · cases access <;> simp [openRing, openFile, hlookup, refuse, bind, Except.bind] at h
  · rw [openRing, openFile_eq hlookup] at h
    split at h
    · cases h
    split at h
    · cases h
    split at h
    · cases h
    split at h
    · cases h
    rename_i hlong hmark hstart hstop
    obtain rfl : ({ path, node, access, capacity := (fs.image node).size - ControlBlock.size
                    cursor := (fs.image node).start } : Handle) = handle := by
      simpa [bind, Except.bind, pure, Except.pure] using h
    have hopens : (fs.image node).Opens ((fs.image node).size - ControlBlock.size) :=
      { size := by omega
        bounded := hfile
        marked := not_not.1 hmark
        start_lt := Nat.lt_of_not_le hstart
        stop_lt := Nat.lt_of_not_le hstop }
    exact ⟨⟨place, rfl⟩, hopens, rfl⟩

/-- whatever its cursor, the handle sees a sound ring -/
theorem sound_ring (h : (fs.image handle.node).Opens handle.capacity) (hcursor : handle.cursor < handle.capacity) :
    (handle.ring fs).Sound :=
  ⟨h, hcursor⟩

end Handle

/-! ## Small files -/

namespace FileSystem

/-- the name of the one file -/
def singleName : Path := ⟨[0x72]⟩

/-- one file, with these offsets and data -/
def single (start stop : Nat) (data : Bytes) : FileSystem :=
  { entries := [([singleName.bytes], .file 0)]
    images := #[.ofBytes (ControlBlock.encode { start := .ofNat start, stop := .ofNat stop } ++ data)] }

end FileSystem

end CircularLog
