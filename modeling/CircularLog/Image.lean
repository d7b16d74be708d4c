/-
The bytes of a file. Reading gives what there is; writing past the end fills the way there with zeros.

- `slice_eq`: reading gives a stretch of the bytes.
- `size_write`: a write within the file keeps its length.
-/
import CircularLog.Bytes

namespace CircularLog

structure Image where
  bytes : ByteArray

namespace Image

def ofBytes (bytes : Bytes) : Image := ⟨bytes.toByteArray⟩

def toBytes (image : Image) : Bytes := image.bytes.data.toList

theorem toBytes_inj {image other : Image} : image.toBytes = other.toBytes ↔ image = other := by
  cases image
  cases other
  simp [toBytes, Array.toList_inj, ByteArray.ext_iff]

instance : DecidableEq Image := fun _ _ => decidable_of_iff _ toBytes_inj

instance : Repr Image where
  reprPrec image n := reprPrec image.toBytes n

/-- the longest that a file can be: `2 ^ 63 - 1` -/
def maxSize : Nat := 0x7fffffffffffffff

/-- a file without any bytes -/
def empty : Image := ⟨.empty⟩

def size (image : Image) : Nat := image.bytes.size

/-- the bytes from the position on, as many of the `length` as there are -/
def slice (image : Image) (position length : Nat) : Bytes :=
  (image.bytes.extract position (min (position + length) image.size)).data.toList

/-- the cells with this many zeros behind them -/
def pad (cells : ByteArray) : Nat → ByteArray
  | 0 => cells
  | count + 1 => pad (cells.push 0) count

/-- cut short, or made longer with zeros -/
def resize (image : Image) (length : Nat) : Image :=
  ⟨pad (image.bytes.extract 0 (min length image.size)) (length - image.size)⟩

/-- the cells with the bytes laid over them from the position on; the position is at most their number -/
def overlay (cells : ByteArray) (position : Nat) : Bytes → ByteArray
  | [] => cells
  | b :: rest =>
    overlay (if h : position < cells.size then cells.set position b h else cells.push b) (position + 1) rest

def write (image : Image) (position : Nat) (data : Bytes) : Image :=
  if data.isEmpty then image else ⟨overlay (pad image.bytes (position - image.size)) position data⟩

@[simp] theorem toBytes_ofBytes (bytes : Bytes) : (ofBytes bytes).toBytes = bytes := by
  simp [ofBytes, toBytes, List.data_toByteArray]

theorem length_toBytes (image : Image) : image.toBytes.length = image.size := rfl

theorem slice_eq (image : Image) (position length : Nat) :
    image.slice position length = (image.toBytes.drop position).take length := by
  have hsize : image.bytes.data.toList.length = image.size := rfl
  rw [slice, toBytes, ByteArray.data_extract, Array.toList_extract, List.extract_eq_take_drop]
  apply List.ext_getElem
  · simp only [List.length_take, List.length_drop, hsize]
    omega
  · simp

@[simp] theorem write_nil (image : Image) (position : Nat) : image.write position [] = image := rfl

theorem data_pad (cells : ByteArray) (count : Nat) :
    (pad cells count).data.toList = cells.data.toList ++ List.replicate count 0 := by
  induction count generalizing cells with
  | zero => simp [pad]
  | succ count ih => simp [pad, ih, ByteArray.data_push, List.replicate_succ]

@[simp] theorem size_pad (cells : ByteArray) (count : Nat) : (pad cells count).size = cells.size + count := by
  have h := congrArg List.length (data_pad cells count)
  simpa [ByteArray.size_data] using h

@[simp] theorem size_resize (image : Image) (length : Nat) : (image.resize length).size = length := by
  rw [resize, size, size_pad, ByteArray.size_extract, size]
  omega

theorem size_set (cells : ByteArray) (position : Nat) (b : UInt8) (h : position < cells.size) :
    (cells.set position b h).size = cells.size := by
  simp [← ByteArray.size_data, ByteArray.data_set]

theorem size_overlay (cells : ByteArray) (position : Nat) (data : Bytes) (h : position ≤ cells.size) :
    (overlay cells position data).size = max cells.size (position + data.length) := by
  induction data generalizing cells position with
  | nil => simp [overlay, h]
  | cons b rest ih =>
    rw [overlay]
    split
    · rename_i hlt
      rw [ih _ _ (by rw [size_set]; omega), size_set, List.length_cons]
      omega
    · rw [ih _ _ (by rw [ByteArray.size_push]; omega), ByteArray.size_push, List.length_cons]
      omega

/-- a write within the file keeps its length -/
theorem size_write (image : Image) (position : Nat) (data : Bytes) (h : position + data.length ≤ image.size) :
    (image.write position data).size = image.size := by
  unfold write
  split
  · rfl
  · have hpad : position - image.size = 0 := by omega
    rw [hpad]
    simp only [size] at h ⊢
    rw [size_overlay _ _ _ (by simp; omega), size_pad]
    omega

theorem length_slice (image : Image) (position length : Nat) :
    (image.slice position length).length = min length (image.size - position) := by
  rw [slice_eq, List.length_take, List.length_drop, length_toBytes]

end Image

end CircularLog
