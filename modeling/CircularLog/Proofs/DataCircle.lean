/-
The data of a file as a circle of bytes. `Image.circle` is what follows the control block; read from an offset on, it is
the rotation of that list by the offset, and every statement about the data is made on such a rotation.

- `LittleEndian.decode_encode`: reading back a stored number gives it modulo `256 ^ width`.
- `lay_behind`, `lay_front`: bytes laid beside each other, in either order, are laid at once.
- `Region.locate_eq_ok`: a transfer that is no longer than the circle is found, whatever its offset.
- `Region.fetch_eq_ok`: reading gives the front of the rotation.
- `Region.circle_scatter`: writing lays the bytes over the rotation, and leaves the control block alone.
- `Image.circle_setStart`, `Image.start_setStart` and their like: setting one offset changes nothing else.
-/
import CircularLog.ControlBlock
import CircularLog.Region
import Mathlib.Data.List.Rotate
import Mathlib.Tactic

namespace CircularLog

/-! ## Stored numbers -/

namespace LittleEndian

theorem decode_encode (width value : Nat) : decode (encode width value) = value % 256 ^ width := by
  induction width generalizing value with
  | zero => simp [encode, decode, Nat.mod_one]
  | succ width ih =>
    have hbyte : (UInt8.ofNat (value % 256)).toNat = value % 256 := by simp
    rw [encode, decode, hbyte, ih, pow_succ', Nat.mod_mul]

theorem decode_lt (bytes : Bytes) : decode bytes < 256 ^ bytes.length := by
  induction bytes with
  | nil => simp [decode]
  | cons b rest ih =>
    have hb : b.toNat < 256 := b.toNat_lt
    rw [decode, List.length_cons, pow_succ]
    omega

end LittleEndian

/-! ## Bytes laid over bytes -/

/-- the bytes with the data laid over them from the position on -/
def lay (bytes : Bytes) (position : Nat) (data : Bytes) : Bytes :=
  bytes.take position ++ data ++ bytes.drop (position + data.length)

@[simp] theorem lay_nil (bytes : Bytes) (position : Nat) : lay bytes position [] = bytes := by
  simp [lay]

theorem length_lay {bytes data : Bytes} {position : Nat} (h : position + data.length ≤ bytes.length) :
    (lay bytes position data).length = bytes.length := by
  simp only [lay, List.length_append, List.length_take, List.length_drop]
  omega

theorem take_lay {bytes data : Bytes} {position n : Nat} (hn : n ≤ position) (h : position ≤ bytes.length) :
    (lay bytes position data).take n = bytes.take n := by
  have hlength : n ≤ (bytes.take position).length := by
    rw [List.length_take]
    omega
  rw [lay, List.append_assoc, List.take_append_of_le_length hlength, List.take_take, Nat.min_eq_left hn]

theorem drop_lay {bytes data : Bytes} {position n : Nat} (hn : position + data.length ≤ n)
    (h : position + data.length ≤ bytes.length) : (lay bytes position data).drop n = bytes.drop n := by
  have hlength : (bytes.take position ++ data).length = position + data.length := by
    rw [List.length_append, List.length_take]
    omega
  rw [lay, List.drop_append, List.drop_eq_nil_of_le (by omega), List.nil_append, hlength, List.drop_drop]
  congr 1
  omega

/-- the first byte, and then the others behind it -/
theorem lay_cons {bytes rest : Bytes} {b : UInt8} {position : Nat} (h : position < bytes.length) :
    lay bytes position (b :: rest) = lay (bytes.set position b) (position + 1) rest := by
  have hset : position < (bytes.set position b).length := by
    rw [List.length_set]
    exact h
  have hfront : (bytes.set position b).take (position + 1) = bytes.take position ++ [b] := by
    rw [List.take_succ_eq_append_getElem hset, List.take_set_of_le le_rfl, List.getElem_set_self]
  rw [lay, lay, hfront, List.drop_set_of_lt (by omega), List.length_cons]
  simp only [List.append_assoc, List.cons_append, List.nil_append]
  congr 4
  omega

/-- what was laid is read back -/
theorem take_drop_lay (bytes data : Bytes) {position : Nat} (h : position ≤ bytes.length) :
    ((lay bytes position data).drop position).take data.length = data := by
  have hlength : (bytes.take position).length = position := by
    rw [List.length_take]
    omega
  rw [lay, List.append_assoc, List.drop_append, List.drop_eq_nil_of_le hlength.le, List.nil_append, hlength,
    Nat.sub_self, List.drop_zero, List.take_append_length]

/-- behind a front that is not touched, the data are laid over the rest -/
theorem drop_lay_of_le {bytes data : Bytes} {position n : Nat} (hn : n ≤ position) (h : position ≤ bytes.length) :
    (lay bytes position data).drop n = lay (bytes.drop n) (position - n) data := by
  have hlength : n ≤ (bytes.take position).length := by
    rw [List.length_take]
    omega
  rw [lay, lay, List.append_assoc, List.drop_append_of_le_length hlength, List.drop_take, List.drop_drop,
    List.append_assoc]
  congr 3
  omega

/-- data as long as the stretch that they are laid over -/
theorem lay_append {front old back data : Bytes} (h : data.length = old.length) :
    lay (front ++ old ++ back) front.length data = front ++ data ++ back := by
  rw [lay, List.append_assoc front old back, List.take_append_length, h, ← List.append_assoc front old back,
    ← List.length_append, List.drop_append_length]

theorem exists_split {bytes : Bytes} {position n : Nat} (h : position + n ≤ bytes.length) :
    ∃ front old back : Bytes, bytes = front ++ old ++ back ∧ front.length = position ∧ old.length = n := by
  refine ⟨bytes.take position, (bytes.drop position).take n, (bytes.drop position).drop n, ?_, ?_, ?_⟩
  · rw [List.append_assoc, List.take_append_drop, List.take_append_drop]
  · rw [List.length_take]
    omega
  · rw [List.length_take, List.length_drop]
    omega

/-- laying and turning: seen from where the data go, they are laid over the front -/
theorem rotate_lay {bytes data : Bytes} {position : Nat} (h : position + data.length ≤ bytes.length) :
    (lay bytes position data).rotate position = lay (bytes.rotate position) 0 data := by
  obtain ⟨front, old, back, rfl, rfl, hold⟩ := exists_split h
  have hturned : lay (old ++ back ++ front) 0 data = data ++ back ++ front := by
    have := @lay_append [] old (back ++ front) data hold.symm
    simpa only [List.nil_append, List.append_assoc, List.length_nil] using this
  rw [lay_append hold.symm, List.append_assoc front data, List.append_assoc front old, List.rotate_append_length_eq,
    List.rotate_append_length_eq, hturned]

/-- data that run over the end of the circle are laid in two parts -/
theorem rotate_lay_lay {bytes first second : Bytes} {position : Nat} (hfirst : position + first.length = bytes.length)
    (hsecond : second.length ≤ position) :
    (lay (lay bytes position first) 0 second).rotate position = lay (bytes.rotate position) 0 (first ++ second) := by
  obtain ⟨front, old, back, rfl, rfl, hold⟩ := exists_split hfirst.le
  obtain rfl : back = [] := by
    simp only [List.length_append] at hfirst
    exact List.length_eq_zero_iff.1 (by omega)
  have hfront : 0 + second.length ≤ front.length := by omega
  obtain ⟨none, stale, kept, rfl, hnone, hstale⟩ := exists_split hfront
  obtain rfl : none = [] := List.length_eq_zero_iff.1 hnone
  have htail : lay ([] ++ stale ++ (kept ++ first)) 0 second = [] ++ second ++ (kept ++ first) :=
    lay_append hstale.symm
  have hturned : lay ([] ++ (old ++ stale) ++ kept) 0 (first ++ second) = [] ++ (first ++ second) ++ kept :=
    lay_append (by rw [List.length_append, List.length_append, hold, hstale])
  have hplace : ([] ++ stale ++ kept).length = (second ++ kept).length := by
    simp only [List.nil_append, List.length_append, hstale]
  simp only [List.nil_append, List.append_assoc] at htail hturned hplace
  rw [lay_append hold.symm]
  simp only [List.append_nil, List.nil_append, List.append_assoc]
  rw [htail, hplace, ← List.append_assoc second kept, List.rotate_append_length_eq, ← hplace,
    ← List.append_assoc stale kept, List.rotate_append_length_eq, hturned]

/-- the data laid over a turned circle, seen without the turn -/
theorem eq_lay_of_rotate {before after data : Bytes} {position : Nat} (h : position + data.length ≤ before.length)
    (hturned : after.rotate position = lay (before.rotate position) 0 data) : after = lay before position data := by
  apply List.rotate_injective position
  show after.rotate position = (lay before position data).rotate position
  rw [hturned, rotate_lay h]

/-- bytes laid behind other bytes -/
theorem lay_behind {bytes first second : Bytes} {position : Nat}
    (h : position + first.length + second.length ≤ bytes.length) :
    lay (lay bytes position first) (position + first.length) second = lay bytes position (first ++ second) := by
  have hposition : (bytes.take position).length = position := by
    rw [List.length_take]
    omega
  have hfront : (lay bytes position first).take (position + first.length) = bytes.take position ++ first := by
    rw [lay]
    apply List.take_left'
    rw [List.length_append, hposition]
  rw [lay, hfront, drop_lay (Nat.le_add_right _ _) (by omega), lay, List.length_append, ← List.append_assoc,
    Nat.add_assoc]

/-- and in front of them -/
theorem lay_front {bytes first second : Bytes} (h : first.length + second.length ≤ bytes.length) :
    lay (lay bytes first.length second) 0 first = lay bytes 0 (first ++ second) := by
  have hposition : (bytes.take first.length).length = first.length := by
    rw [List.length_take]
    omega
  have hback : (lay bytes first.length second).drop first.length
      = second ++ bytes.drop (first.length + second.length) := by
    rw [lay, List.append_assoc]
    exact List.drop_left' hposition
  rw [lay, List.take_zero, Nat.zero_add, hback, lay, List.take_zero, Nat.zero_add, List.length_append]
  simp only [List.nil_append, List.append_assoc]

/-! ### Byte by byte -/

theorem getElem?_lay {bytes data : Bytes} {position i : Nat} (h : position + data.length ≤ bytes.length)
    (hi : i < position ∨ position + data.length ≤ i) : (lay bytes position data)[i]? = bytes[i]? := by
  have hfront : (bytes.take position).length = position := by
    rw [List.length_take]
    omega
  rw [lay, List.append_assoc]
  rcases hi with hlt | hge
  · rw [List.getElem?_append_left (by omega), List.getElem?_take_of_lt hlt]
  · rw [List.getElem?_append_right (by omega), List.getElem?_append_right (by omega), List.getElem?_drop, hfront]
    congr 1
    omega

theorem getElem?_lay_within {bytes data : Bytes} {position i : Nat} (h : position ≤ bytes.length)
    (hi : i < data.length) :
    (lay bytes position data)[position + i]? = data[i]? := by
  have hfront : (bytes.take position).length = position := by
    rw [List.length_take]
    omega
  rw [lay, List.append_assoc, List.getElem?_append_right (by omega), hfront, Nat.add_sub_cancel_left,
    List.getElem?_append_left hi]

/-! ## Images -/

namespace Image

theorem data_overlay (cells : ByteArray) (position : Nat) (data : Bytes) (h : position + data.length ≤ cells.size) :
    (overlay cells position data).data.toList = lay cells.data.toList position data := by
  induction data generalizing cells position with
  | nil => rw [overlay, lay_nil]
  | cons b rest ih =>
    rw [List.length_cons] at h
    have hlt : position < cells.size := by omega
    have hset : (cells.set position b hlt).data.toList = cells.data.toList.set position b := by
      simp [ByteArray.data_set]
    rw [overlay, dif_pos hlt, ih _ _ (by rw [size_set]; omega), hset]
    exact (lay_cons hlt).symm

theorem toBytes_write (image : Image) (position : Nat) (data : Bytes) (h : position + data.length ≤ image.size) :
    (image.write position data).toBytes = lay image.toBytes position data := by
  unfold write
  split
  · rename_i hnil
    rw [List.isEmpty_iff.1 hnil, lay_nil]
  · have hpad : position - image.size = 0 := by omega
    rw [hpad]
    exact data_overlay _ _ _ h

/-- the bytes of the control block -/
def head (image : Image) : Bytes := image.toBytes.take ControlBlock.size

/-- the data: everything behind the control block -/
def circle (image : Image) : Bytes := image.toBytes.drop ControlBlock.size

theorem length_circle (image : Image) : image.circle.length = image.size - ControlBlock.size := by
  rw [circle, List.length_drop, length_toBytes]

theorem length_circle_eq {image : Image} {capacity : Nat} (hsize : image.size = ControlBlock.size + capacity) :
    image.circle.length = capacity := by
  rw [length_circle, hsize, Nat.add_sub_cancel_left]

/-- a file is its control block and its data -/
theorem ext_head_circle {image other : Image} (hhead : image.head = other.head)
    (hcircle : image.circle = other.circle) :
    image = other := by
  rw [← toBytes_inj, ← List.take_append_drop ControlBlock.size image.toBytes,
    ← List.take_append_drop ControlBlock.size other.toBytes]
  exact congrArg₂ (· ++ ·) hhead hcircle

/-- a number in the control block is read off the block alone -/
theorem number_eq (image : Image) {position width : Nat} (h : position + width ≤ ControlBlock.size) :
    image.number position width = LittleEndian.decode ((image.head.drop position).take width) := by
  rw [number, slice_eq, head, List.drop_take, List.take_take]
  congr 3
  omega

theorem start_congr {image other : Image} (h : image.head = other.head) : image.start = other.start := by
  rw [start, start, number_eq _ (by decide), number_eq _ (by decide), h]

theorem stop_congr {image other : Image} (h : image.head = other.head) : image.stop = other.stop := by
  rw [stop, stop, number_eq _ (by decide), number_eq _ (by decide), h]

theorem flags_congr {image other : Image} (h : image.head = other.head) : image.flags = other.flags := by
  rw [flags, flags, number_eq _ (by decide), number_eq _ (by decide), h]

theorem number_lt (image : Image) (position : Nat) : image.number position 8 < Word.bound := by
  have hlt := LittleEndian.decode_lt (image.slice position 8)
  have hle : (image.slice position 8).length ≤ 8 := by
    rw [length_slice]
    omega
  have hpow : 256 ^ (image.slice position 8).length ≤ 256 ^ 8 := Nat.pow_le_pow_right (by norm_num) hle
  exact hlt.trans_le (hpow.trans (by norm_num [Word.bound]))

theorem start_lt (image : Image) : image.start < Word.bound := number_lt image _

theorem stop_lt (image : Image) : image.stop < Word.bound := number_lt image _

/-! ### Setting an offset -/

section Store

variable {image : Image} {position offset other width : Nat}

/-- an offset that is stored in the control block goes over what there was -/
theorem toBytes_store (hsize : ControlBlock.size ≤ image.size) (hposition : position + 8 ≤ ControlBlock.size) :
    (image.write position (LittleEndian.encode 8 offset)).toBytes
      = lay image.toBytes position (LittleEndian.encode 8 offset) := by
  apply toBytes_write
  rw [LittleEndian.length_encode]
  exact hposition.trans hsize

theorem size_store (hsize : ControlBlock.size ≤ image.size) (hposition : position + 8 ≤ ControlBlock.size) :
    (image.write position (LittleEndian.encode 8 offset)).size = image.size := by
  apply size_write
  rw [LittleEndian.length_encode]
  exact hposition.trans hsize

theorem circle_store (hsize : ControlBlock.size ≤ image.size) (hposition : position + 8 ≤ ControlBlock.size) :
    (image.write position (LittleEndian.encode 8 offset)).circle = image.circle := by
  rw [circle, toBytes_store hsize hposition]
  apply drop_lay
  · rw [LittleEndian.length_encode]
    exact hposition
  · rw [LittleEndian.length_encode, length_toBytes]
    exact hposition.trans hsize

theorem number_store (hsize : ControlBlock.size ≤ image.size) (hposition : position + 8 ≤ ControlBlock.size)
    (hoffset : offset < Word.bound) :
    (image.write position (LittleEndian.encode 8 offset)).number position 8 = offset := by
  have hlong : position ≤ image.toBytes.length := by
    rw [length_toBytes]
    omega
  have hread := take_drop_lay image.toBytes (LittleEndian.encode 8 offset) hlong
  rw [LittleEndian.length_encode] at hread
  rw [number, slice_eq, toBytes_store hsize hposition, hread, LittleEndian.decode_encode]
  exact Nat.mod_eq_of_lt (hoffset.trans_le (by norm_num [Word.bound]))

/-- a number in front of the offset stays as it was -/
theorem number_store_front (hsize : ControlBlock.size ≤ image.size) (hposition : position + 8 ≤ ControlBlock.size)
    (hfront : other + width ≤ position) :
    (image.write position (LittleEndian.encode 8 offset)).number other width = image.number other width := by
  rw [number, number, slice_eq, slice_eq, List.take_drop, List.take_drop, toBytes_store hsize hposition,
    take_lay hfront]
  rw [length_toBytes]
  omega

/-- and so does one behind it -/
theorem number_store_behind (hsize : ControlBlock.size ≤ image.size) (hposition : position + 8 ≤ ControlBlock.size)
    (hbehind : position + 8 ≤ other) :
    (image.write position (LittleEndian.encode 8 offset)).number other width = image.number other width := by
  rw [number, number, slice_eq, slice_eq, toBytes_store hsize hposition, drop_lay]
  · rw [LittleEndian.length_encode]
    exact hbehind
  · rw [LittleEndian.length_encode, length_toBytes]
    exact hposition.trans hsize

theorem mark_store (hsize : ControlBlock.size ≤ image.size) (hposition : position + 8 ≤ ControlBlock.size)
    (hmark : ControlBlock.mark.length ≤ position) :
    (image.write position (LittleEndian.encode 8 offset)).toBytes.take ControlBlock.mark.length
      = image.toBytes.take ControlBlock.mark.length := by
  rw [toBytes_store hsize hposition, take_lay hmark]
  rw [length_toBytes]
  omega

end Store

section Set

variable {image : Image} {offset : Nat}

theorem size_setStart (hsize : ControlBlock.size ≤ image.size) : (image.setStart offset).size = image.size :=
  size_store hsize (by decide)

theorem size_setStop (hsize : ControlBlock.size ≤ image.size) : (image.setStop offset).size = image.size :=
  size_store hsize (by decide)

theorem circle_setStart (hsize : ControlBlock.size ≤ image.size) : (image.setStart offset).circle = image.circle :=
  circle_store hsize (by decide)

theorem circle_setStop (hsize : ControlBlock.size ≤ image.size) : (image.setStop offset).circle = image.circle :=
  circle_store hsize (by decide)

theorem start_setStart (hsize : ControlBlock.size ≤ image.size) (hoffset : offset < Word.bound) :
    (image.setStart offset).start = offset :=
  number_store hsize (by decide) hoffset

theorem stop_setStop (hsize : ControlBlock.size ≤ image.size) (hoffset : offset < Word.bound) :
    (image.setStop offset).stop = offset :=
  number_store hsize (by decide) hoffset

theorem stop_setStart (hsize : ControlBlock.size ≤ image.size) : (image.setStart offset).stop = image.stop :=
  number_store_behind hsize (by decide) (by decide)

theorem start_setStop (hsize : ControlBlock.size ≤ image.size) : (image.setStop offset).start = image.start :=
  number_store_front hsize (by decide) (by decide)

/-- the mark is in front of both offsets -/
theorem mark_setStart (hsize : ControlBlock.size ≤ image.size) :
    (image.setStart offset).toBytes.take ControlBlock.mark.length = image.toBytes.take ControlBlock.mark.length :=
  mark_store hsize (by decide) (by decide)

theorem mark_setStop (hsize : ControlBlock.size ≤ image.size) :
    (image.setStop offset).toBytes.take ControlBlock.mark.length = image.toBytes.take ControlBlock.mark.length :=
  mark_store hsize (by decide) (by decide)

end Set

/-! ### The control block as a whole -/

section Front

variable {image other : Image} {offset : Nat}

/-- mark and flags, in front of the offsets -/
def front (image : Image) : Bytes := image.toBytes.take ControlBlock.startPosition

theorem front_setStart (h : ControlBlock.size ≤ image.size) : (image.setStart offset).front = image.front := by
  rw [front, setStart, toBytes_store h (by decide), take_lay le_rfl, front]
  rw [length_toBytes]
  exact Nat.le_trans (by decide) h

theorem front_setStop (h : ControlBlock.size ≤ image.size) : (image.setStop offset).front = image.front := by
  rw [front, setStop, toBytes_store h (by decide), take_lay (by decide), front]
  rw [length_toBytes]
  exact Nat.le_trans (by decide) h

theorem front_congr (h : image.head = other.head) : image.front = other.front := by
  have hfront : ∀ some : Image, some.front = some.head.take ControlBlock.startPosition := by
    intro some
    rw [head, List.take_take, front]
    rfl
  rw [hfront, hfront, h]

theorem flags_of_front (h : image.front = other.front) : image.flags = other.flags := by
  have hflags : ∀ some : Image, some.flags
      = LittleEndian.decode ((some.front.drop ControlBlock.flagsPosition).take 4) := by
    intro some
    rw [flags, number, slice_eq, front, List.drop_take, List.take_take]
    rfl
  rw [hflags, hflags, h]

/-- an offset in the control block is eight bytes of it -/
theorem encode_number {position : Nat} (h : position + 8 ≤ image.size) :
    LittleEndian.encode 8 (image.number position 8) = (image.toBytes.drop position).take 8 := by
  have hlength : (image.slice position 8).length = 8 := by
    rw [length_slice]
    omega
  have hencode := LittleEndian.encode_decode (image.slice position 8)
  rw [hlength, ← number] at hencode
  rw [hencode, slice_eq]

theorem head_eq (h : ControlBlock.size ≤ image.size) :
    image.head = image.front ++ LittleEndian.encode 8 image.start ++ LittleEndian.encode 8 image.stop := by
  have hstart : ControlBlock.startPosition + 8 ≤ image.size := Nat.le_trans (by decide) h
  have hstop : ControlBlock.stopPosition + 8 ≤ image.size := h
  calc image.head
      = image.toBytes.take (ControlBlock.startPosition + 8 + 8) := rfl
    _ = image.front ++ (image.toBytes.drop ControlBlock.startPosition).take 8
          ++ (image.toBytes.drop (ControlBlock.startPosition + 8)).take 8 := by rw [List.take_add, List.take_add, front]
    _ = image.front ++ LittleEndian.encode 8 image.start ++ LittleEndian.encode 8 image.stop := by
        rw [start, stop, encode_number hstart, encode_number hstop]
        rfl

end Front

end Image

/-! ## Transfers -/

namespace Region

/-- the segments of a transfer that is no longer than the circle -/
def stretch (capacity offset length : Nat) : List Segment :=
  if length ≤ capacity - offset % capacity then [⟨Span.base + offset % capacity, length⟩]
  else
    [⟨Span.base + offset % capacity, capacity - offset % capacity⟩,
      ⟨Span.base, length - (capacity - offset % capacity)⟩]

theorem stretch_congr {capacity offset place : Nat} (length : Nat) (h : offset % capacity = place % capacity) :
    stretch capacity offset length = stretch capacity place length := by
  simp only [stretch, h]

theorem seek_eq_ok {segment : Segment} (h : segment.position + segment.length ≤ Image.maxSize) :
    seek segment = .ok () := if_neg (by omega)

section Transfer

variable {image : Image} {capacity offset length : Nat}

theorem locate_eq_ok (hpos : 0 < capacity) (hlength : length ≤ capacity)
    (hfile : ControlBlock.size + capacity ≤ Image.maxSize) :
    locate capacity offset length = .ok (stretch capacity offset length) := by
  have hplace : offset % capacity < capacity := Nat.mod_lt _ hpos
  have hsplit := @Span.split_eq_ok offset length capacity hpos
    (hfile.trans (by norm_num [Image.maxSize, Word.bound]))
  have hbase : Span.base + capacity ≤ Image.maxSize := hfile
  rw [locate, span, if_neg (by omega), hsplit, stretch]
  split
  · have hseek : seek ⟨Span.base + offset % capacity, length⟩ = .ok () := seek_eq_ok (by simp only; omega)
    simp [Span.segments, bind, Except.bind, pure, Except.pure, hseek]
  · have hfirst : seek ⟨Span.base + offset % capacity, capacity - offset % capacity⟩ = .ok () :=
      seek_eq_ok (by simp only; omega)
    have hsecond : seek ⟨Span.base, length - (capacity - offset % capacity)⟩ = .ok () :=
      seek_eq_ok (by simp only; omega)
    simp [Span.segments, bind, Except.bind, pure, Except.pure, hfirst, hsecond]

theorem readSegment_eq_ok {segment : Segment} (h : segment.position + segment.length ≤ image.size) :
    readSegment image segment = ((image.toBytes.drop segment.position).take segment.length, .ok ()) := by
  have hlength : (image.slice segment.position segment.length).length = segment.length := by
    rw [Image.length_slice]
    omega
  rw [readSegment, hlength, if_neg (lt_irrefl _), Image.slice_eq]

theorem readSegments_stretch (hsize : image.size = ControlBlock.size + capacity) (hpos : 0 < capacity)
    (hlength : length ≤ capacity) :
    readSegments image (stretch capacity offset length) = ((image.circle.rotate offset).take length, .ok ()) := by
  have hplace : offset % capacity < capacity := Nat.mod_lt _ hpos
  have hcircle := Image.length_circle_eq hsize
  have hbase : Span.base = ControlBlock.size := rfl
  have hturn : image.circle.rotate offset
      = image.circle.drop (offset % capacity) ++ image.circle.take (offset % capacity) := by
    rw [List.rotate_eq_drop_append_take_mod, hcircle]
  have hdrop : (image.circle.drop (offset % capacity)).length = capacity - offset % capacity := by
    rw [List.length_drop, hcircle]
  rw [stretch, hturn]
  split
  · rename_i hroom
    rw [readSegments, readSegment_eq_ok (by simp only; omega), readSegments, List.take_append_of_le_length (by omega),
      Image.circle, List.drop_drop]
    simp only [List.append_nil]
    rfl
  · rename_i hroom
    rw [readSegments, readSegment_eq_ok (by simp only; omega), readSegments, readSegment_eq_ok (by simp only; omega),
      readSegments, List.take_append, List.take_of_length_le (l := image.circle.drop _) (by omega), hdrop,
      List.take_take, Nat.min_eq_left (by omega), Image.circle, List.drop_drop]
    have hrest : (image.toBytes.drop (Span.base + offset % capacity)).length = capacity - offset % capacity := by
      rw [List.length_drop, Image.length_toBytes]
      omega
    simp only [List.append_nil, List.take_of_length_le hrest.le]
    rfl

theorem read_eq_ok (hsize : image.size = ControlBlock.size + capacity) (hfile : image.size ≤ Image.maxSize)
    (hpos : 0 < capacity) (hlength : length ≤ capacity) :
    read image capacity offset length = ((image.circle.rotate offset).take length, .ok ()) := by
  rw [read, locate_eq_ok hpos hlength (hsize ▸ hfile)]
  exact readSegments_stretch hsize hpos hlength

theorem fetch_eq_ok (hsize : image.size = ControlBlock.size + capacity) (hfile : image.size ≤ Image.maxSize)
    (hpos : 0 < capacity) (hlength : length ≤ capacity) :
    fetch image capacity offset length = .ok ((image.circle.rotate offset).take length) := by
  rw [fetch, read_eq_ok hsize hfile hpos hlength]

/-- one segment within the data -/
theorem write_within {position : Nat} {data : Bytes} (h : ControlBlock.size + position + data.length ≤ image.size) :
    (image.write (ControlBlock.size + position) data).size = image.size
      ∧ (image.write (ControlBlock.size + position) data).head = image.head
      ∧ (image.write (ControlBlock.size + position) data).circle = lay image.circle position data := by
  have hbytes : ControlBlock.size + position ≤ image.toBytes.length := by
    rw [Image.length_toBytes]
    omega
  refine ⟨Image.size_write _ _ _ h, ?_, ?_⟩
  · rw [Image.head, Image.toBytes_write _ _ _ h, take_lay (by omega) hbytes, Image.head]
  · rw [Image.circle, Image.toBytes_write _ _ _ h, drop_lay_of_le (by omega) hbytes, Image.circle]
    congr 1
    omega

theorem scatter_stretch (offset : Nat) {data : Bytes} (hsize : image.size = ControlBlock.size + capacity)
    (hpos : 0 < capacity) (hlength : data.length ≤ capacity) :
    (scatter image (stretch capacity offset data.length) data).size = image.size
      ∧ (scatter image (stretch capacity offset data.length) data).head = image.head
      ∧ (scatter image (stretch capacity offset data.length) data).circle.rotate offset
          = lay (image.circle.rotate offset) 0 data := by
  have hplace : offset % capacity < capacity := Nat.mod_lt _ hpos
  have hcircle := Image.length_circle_eq hsize
  have hbase : Span.base = ControlBlock.size := rfl
  have hturn : ∀ bytes : Bytes, bytes.length = capacity → bytes.rotate offset = bytes.rotate (offset % capacity) := by
    intro bytes hlength
    rw [← hlength, List.rotate_mod]
  rw [stretch]
  split
  · rename_i hroom
    have hwithin : ControlBlock.size + offset % capacity + data.length ≤ image.size := by omega
    obtain ⟨hkept, hhead, hlaid⟩ := write_within hwithin
    simp only [scatter, hbase, List.take_of_length_le le_rfl]
    refine ⟨hkept, hhead, ?_⟩
    rw [hlaid, hturn _ (by rw [length_lay (by omega), hcircle]), hturn _ hcircle]
    exact rotate_lay (by omega)
  · rename_i hroom
    have hfront : (data.take (capacity - offset % capacity)).length = capacity - offset % capacity := by
      rw [List.length_take]
      omega
    have hback : (data.drop (capacity - offset % capacity)).length = data.length - (capacity - offset % capacity) :=
      List.length_drop
    have hwithin : ControlBlock.size + offset % capacity + (data.take (capacity - offset % capacity)).length
        ≤ image.size := by omega
    obtain ⟨hkept, hhead, hlaid⟩ := write_within hwithin
    -- the rest goes to the beginning of the data
    have hwithin' : ControlBlock.size + 0 + (data.drop (capacity - offset % capacity)).length
        ≤ (image.write (ControlBlock.size + offset % capacity) (data.take (capacity - offset % capacity))).size := by
      omega
    obtain ⟨hkept', hhead', hlaid'⟩ := write_within hwithin'
    simp only [Nat.add_zero] at hkept' hhead' hlaid'
    simp only [scatter, hbase, List.take_of_length_le hback.le]
    refine ⟨hkept'.trans hkept, hhead'.trans hhead, ?_⟩
    rw [hlaid', hlaid, hturn _ ?_, hturn _ hcircle, rotate_lay_lay (by omega) (by omega), List.take_append_drop]
    rw [length_lay (by rw [length_lay (by omega)]; omega), length_lay (by omega), hcircle]

/-- the data laid over the circle, seen from any place `k` bytes before them -/
theorem circle_scatter {view k : Nat} {data : Bytes} (hsize : image.size = ControlBlock.size + capacity)
    (hpos : 0 < capacity) (hplace : offset % capacity = (view + k) % capacity) (hlength : k + data.length ≤ capacity) :
    (scatter image (stretch capacity offset data.length) data).circle.rotate view
      = lay (image.circle.rotate view) k data := by
  have hcircle := Image.length_circle_eq hsize
  rw [stretch_congr _ hplace]
  apply eq_lay_of_rotate
  · rw [List.length_rotate, hcircle]
    exact hlength
  · rw [List.rotate_rotate, List.rotate_rotate]
    exact (scatter_stretch _ hsize hpos (by omega)).2.2

end Transfer

end Region

end CircularLog
