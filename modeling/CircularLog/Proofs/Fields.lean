/-
The control block has one layout. Whoever writes or reads it as a whole and whoever reads or sets one field of it in
place mean the same bytes: a mark, the flags and the two offsets, each behind the one before it, and nothing else.

- `ControlBlock.decode_encode`, `ControlBlock.take_of_decode`: a block is read back from what is written, and the other
  way.
- `Image.Bears.control_eq`: read field by field in place, it is the same block.
- `Image.Bears.set`, `Image.Bears.setAll`: what is set in place is set in the block, once or any number of times.
- `ControlBlock.setAll_eq`: of the values that a field is given the last one stays.
- `block_has_one_layout`: all of it, for every block.
-/
import CircularLog.Proofs.DataCircle

namespace CircularLog

/-- the last of the values, and the one there was if there is none -/
theorem getLast_filterMap_cons {α β : Type} (f : α → Option β) (a : α) (rest : List α) (old : β) :
    ((a :: rest).filterMap f).getLast?.getD old = (rest.filterMap f).getLast?.getD ((f a).getD old) := by
  cases ha : f a with
  | none => rw [List.filterMap_cons_none ha, Option.getD_none]
  | some b => rw [List.filterMap_cons_some ha, List.getLast?_cons, Option.getD_some, Option.getD_some]

namespace ControlBlock

/-! ## The whole block -/

section Layout

variable {front back bytes rest : Bytes} {position width value : Nat} {block : ControlBlock}

/-- a number that is stored behind other bytes -/
theorem field_middle (hfront : front.length = position) :
    field (front ++ (LittleEndian.encode width value ++ back)) position width = value % 256 ^ width := by
  unfold field
  rw [List.drop_left' hfront, List.take_left' (LittleEndian.length_encode width value), LittleEndian.decode_encode]

theorem flags_encode (block : ControlBlock) (rest : Bytes) :
    field (block.encode ++ rest) flagsPosition 4 = block.flags.toNat := by
  have hflags : block.flags.toNat < 256 ^ 4 := block.flags.toNat_lt
  have hfront : mark.length = flagsPosition := rfl
  simp only [encode, List.append_assoc]
  rw [field_middle hfront, Nat.mod_eq_of_lt hflags]

theorem start_encode (block : ControlBlock) (rest : Bytes) :
    field (block.encode ++ rest) startPosition 8 = block.start.toNat := by
  have hstart : block.start.toNat < 256 ^ 8 := block.start.toNat_lt
  have hfront : (mark ++ LittleEndian.encode 4 block.flags.toNat).length = startPosition := by
    simp [mark, startPosition]
  rw [encode, List.append_assoc, List.append_assoc, field_middle hfront, Nat.mod_eq_of_lt hstart]

theorem stop_encode (block : ControlBlock) (rest : Bytes) :
    field (block.encode ++ rest) stopPosition 8 = block.stop.toNat := by
  have hstop : block.stop.toNat < 256 ^ 8 := block.stop.toNat_lt
  have hfront : (mark ++ LittleEndian.encode 4 block.flags.toNat ++ LittleEndian.encode 8 block.start.toNat).length
      = stopPosition := by
    simp [mark, stopPosition]
  rw [encode, List.append_assoc, field_middle hfront, Nat.mod_eq_of_lt hstop]

theorem decode_encode (block : ControlBlock) (rest : Bytes) : decode (block.encode ++ rest) = .ok block := by
  have hlong : ¬(block.encode ++ rest).length < size := by
    rw [List.length_append, length_encode]
    omega
  have hmark : (block.encode ++ rest).take mark.length = mark := by
    simp only [encode, List.append_assoc, List.take_left]
  rw [decode, if_neg hlong, if_neg (not_not.2 hmark), flags_encode, start_encode, stop_encode, UInt32.ofNat_toNat,
    UInt64.ofNat_toNat, UInt64.ofNat_toNat]

/-- a field is as many of the bytes as it is wide -/
theorem encode_field (h : position + width ≤ bytes.length) :
    LittleEndian.encode width (field bytes position width) = (bytes.drop position).take width := by
  have hlength : ((bytes.drop position).take width).length = width := by
    rw [List.length_take, List.length_drop]
    omega
  have hback := LittleEndian.encode_decode ((bytes.drop position).take width)
  rwa [hlength] at hback

theorem field_lt (bytes : Bytes) (position width : Nat) : field bytes position width < 256 ^ width := by
  have hlength : ((bytes.drop position).take width).length ≤ width := List.length_take_le _ _
  calc field bytes position width
      < 256 ^ ((bytes.drop position).take width).length := LittleEndian.decode_lt _
    _ ≤ 256 ^ width := Nat.pow_le_pow_right (by norm_num) hlength

/-- what is read as a block begins with the block as it is written -/
theorem take_of_decode (h : decode bytes = .ok block) : bytes.take size = block.encode := by
  unfold decode at h
  split at h
  · cases h
  rename_i hlong
  split at h
  · cases h
  rename_i hmark
  obtain rfl := Except.ok.inj h
  have hsize : 24 ≤ bytes.length := Nat.le_of_not_lt hlong
  have hflags : (UInt32.ofNat (field bytes flagsPosition 4)).toNat = field bytes flagsPosition 4 :=
    UInt32.toNat_ofNat_of_lt' (field_lt bytes flagsPosition 4)
  have hoffset : ∀ position, (UInt64.ofNat (field bytes position 8)).toNat = field bytes position 8 :=
    fun position => UInt64.toNat_ofNat_of_lt' (field_lt bytes position 8)
  calc bytes.take size
      = bytes.take (mark.length + 4 + 8 + 8) := rfl
    _ = bytes.take mark.length ++ (bytes.drop flagsPosition).take 4 ++ (bytes.drop startPosition).take 8
          ++ (bytes.drop stopPosition).take 8 := by
        rw [List.take_add, List.take_add, List.take_add]
        rfl
    _ = mark ++ LittleEndian.encode 4 (field bytes flagsPosition 4)
      ++ LittleEndian.encode 8 (field bytes startPosition 8)
          ++ LittleEndian.encode 8 (field bytes stopPosition 8) := by
        rw [not_not.1 hmark, encode_field (by rw [flagsPosition]; omega), encode_field (by rw [startPosition]; omega),
          encode_field (by rw [stopPosition]; omega)]
    _ = _ := by
        simp only [encode, hflags, hoffset]

end Layout

/-! ## One field -/

/-- one of the offsets gets a value -/
inductive Setting where
  | start (offset : UInt64)
  | stop (offset : UInt64)
deriving DecidableEq, Repr

def Setting.start? : Setting → Option UInt64
  | .start offset => some offset
  | .stop _ => none

def Setting.stop? : Setting → Option UInt64
  | .start _ => none
  | .stop offset => some offset

/-- the block with one field replaced -/
def set (block : ControlBlock) : Setting → ControlBlock
  | .start offset => { block with start := offset }
  | .stop offset => { block with stop := offset }

/-- one setting after another -/
def setAll (block : ControlBlock) (settings : List Setting) : ControlBlock := settings.foldl set block

theorem setAll_eq (block : ControlBlock) (settings : List Setting) :
    block.setAll settings
      = { flags := block.flags
          start := (settings.filterMap Setting.start?).getLast?.getD block.start
          stop := (settings.filterMap Setting.stop?).getLast?.getD block.stop } := by
  induction settings generalizing block with
  | nil => rfl
  | cons setting rest ih =>
    rw [setAll, List.foldl_cons, ← setAll, ih, getLast_filterMap_cons, getLast_filterMap_cons]
    cases setting with
    | start offset => rfl
    | stop offset => rfl

end ControlBlock

/-! ## In place -/

namespace Image

open ControlBlock (Setting)

/-- an offset is set where it stands in the file -/
def set (image : Image) : Setting → Image
  | .start offset => image.setStart offset.toNat
  | .stop offset => image.setStop offset.toNat

/-- one setting after another -/
def setAll (image : Image) (settings : List Setting) : Image := settings.foldl set image

/-- the file begins with the block, and the rest is behind it -/
def Bears (image : Image) (block : ControlBlock) (rest : Bytes) : Prop := image.toBytes = block.encode ++ rest

namespace Bears

variable {image other : Image} {block : ControlBlock} {rest : Bytes}

theorem ext (h : image.Bears block rest) (hother : other.Bears block rest) : image = other :=
  toBytes_inj.1 (h.trans hother.symm)

theorem size_le (h : image.Bears block rest) : ControlBlock.size ≤ image.size := by
  rw [← length_toBytes, h, List.length_append, ControlBlock.length_encode]
  exact Nat.le_add_right _ _

theorem decode_eq (h : image.Bears block rest) : ControlBlock.decode image.toBytes = .ok block := by
  rw [h]
  exact ControlBlock.decode_encode block rest

/-- a number in place is the field of the bytes -/
theorem number_eq (h : image.Bears block rest) (position width : Nat) :
    image.number position width = ControlBlock.field (block.encode ++ rest) position width := by
  rw [number, slice_eq, h, ControlBlock.field]

theorem control_eq (h : image.Bears block rest) : image.control = block := by
  unfold control flags start stop
  rw [h.number_eq, h.number_eq, h.number_eq, ControlBlock.flags_encode, ControlBlock.start_encode,
    ControlBlock.stop_encode, UInt32.ofNat_toNat, UInt64.ofNat_toNat, UInt64.ofNat_toNat]

/-- what is set in place is set in the block, and the rest stays -/
theorem set (h : image.Bears block rest) (setting : Setting) : (image.set setting).Bears (block.set setting) rest := by
  cases setting with
  | start offset =>
    have hplace : ControlBlock.startPosition
        = (ControlBlock.mark ++ LittleEndian.encode 4 block.flags.toNat).length := by
      simp [ControlBlock.mark, ControlBlock.startPosition]
    have hbytes : image.toBytes = ControlBlock.mark ++ LittleEndian.encode 4 block.flags.toNat
        ++ LittleEndian.encode 8 block.start.toNat ++ (LittleEndian.encode 8 block.stop.toNat ++ rest) := by
      rw [h, ControlBlock.encode, List.append_assoc _ _ rest]
    calc (image.setStart offset.toNat).toBytes
        = lay image.toBytes ControlBlock.startPosition (LittleEndian.encode 8 offset.toNat) :=
          toBytes_store h.size_le (by decide)
      _ = ControlBlock.mark ++ LittleEndian.encode 4 block.flags.toNat ++ LittleEndian.encode 8 offset.toNat
            ++ (LittleEndian.encode 8 block.stop.toNat ++ rest) := by
          rw [hbytes, hplace, lay_append (by rw [LittleEndian.length_encode, LittleEndian.length_encode])]
      _ = (block.set (.start offset)).encode ++ rest := by
          rw [ControlBlock.encode, List.append_assoc _ _ rest]
          rfl
  | stop offset =>
    have hplace : ControlBlock.stopPosition = (ControlBlock.mark ++ LittleEndian.encode 4 block.flags.toNat
        ++ LittleEndian.encode 8 block.start.toNat).length := by
      simp [ControlBlock.mark, ControlBlock.stopPosition]
    calc (image.setStop offset.toNat).toBytes
        = lay image.toBytes ControlBlock.stopPosition (LittleEndian.encode 8 offset.toNat) :=
          toBytes_store h.size_le (by decide)
      _ = (block.set (.stop offset)).encode ++ rest := by
          rw [h, ControlBlock.encode, hplace,
            lay_append (by rw [LittleEndian.length_encode, LittleEndian.length_encode])]
          rfl

/-- any number of times -/
theorem setAll (h : image.Bears block rest) (settings : List Setting) :
    (image.setAll settings).Bears (block.setAll settings) rest := by
  induction settings generalizing image block with
  | nil => exact h
  | cons setting settings ih => exact ih (h.set setting)

end Bears

theorem bears_of_decode {bytes : Bytes} {block : ControlBlock} (h : ControlBlock.decode bytes = .ok block) :
    (Image.ofBytes bytes).Bears block (bytes.drop ControlBlock.size) := by
  rw [Bears, toBytes_ofBytes, ← ControlBlock.take_of_decode h, List.take_append_drop]

end Image

/-- the block, written and read as a whole and field by field -/
structure ControlBlock.Layout (block : ControlBlock) : Prop where
  /-- it is read back, whatever follows it -/
  read_back : ∀ rest, decode (block.encode ++ rest) = .ok block
  /-- and written back as the bytes that it was read from -/
  written_back : ∀ bytes, decode bytes = .ok block → block.encode = bytes.take size
  /-- field by field the same is read in place -/
  in_place : ∀ bytes, decode bytes = .ok block → (Image.ofBytes bytes).control = block
  /-- to set an offset in place is to replace it in the block; mark, flags and the other offset stay, and so does every
  byte behind the block -/
  set_start : ∀ bytes offset, decode bytes = .ok block →
    ((Image.ofBytes bytes).setStart offset.toNat).toBytes = { block with start := offset }.encode ++ bytes.drop size
  set_stop : ∀ bytes offset, decode bytes = .ok block →
    ((Image.ofBytes bytes).setStop offset.toNat).toBytes = { block with stop := offset }.encode ++ bytes.drop size
  /-- and however often it is done, those who read the block as a whole and those who read it in place see the same -/
  set_all : ∀ bytes settings, decode bytes = .ok block →
    ((Image.ofBytes bytes).setAll settings).toBytes = (block.setAll settings).encode ++ bytes.drop size
      ∧ decode ((Image.ofBytes bytes).setAll settings).toBytes = .ok (block.setAll settings)
      ∧ ((Image.ofBytes bytes).setAll settings).control = block.setAll settings
  /-- it does not matter which of the two offsets is set first -/
  commute : ∀ bytes (start stop : UInt64), decode bytes = .ok block →
    ((Image.ofBytes bytes).setStart start.toNat).setStop stop.toNat
      = ((Image.ofBytes bytes).setStop stop.toNat).setStart start.toNat
  /-- and of all the values that an offset is given the last one stays -/
  last : ∀ settings, block.setAll settings
    = { flags := block.flags
        start := (settings.filterMap Setting.start?).getLast?.getD block.start
        stop := (settings.filterMap Setting.stop?).getLast?.getD block.stop }

/-- **The control block has one layout.** For all flags and offsets: written as a whole and read as a whole, whatever
follows; read in place; and set in place. -/
theorem block_has_one_layout (block : ControlBlock) : block.Layout where
  read_back := ControlBlock.decode_encode block
  written_back _ h := (ControlBlock.take_of_decode h).symm
  in_place _ h := (Image.bears_of_decode h).control_eq
  set_start _ offset h := (Image.bears_of_decode h).set (.start offset)
  set_stop _ offset h := (Image.bears_of_decode h).set (.stop offset)
  set_all := by
    intro bytes settings h
    have hbears := (Image.bears_of_decode h).setAll settings
    exact ⟨hbears, hbears.decode_eq, hbears.control_eq⟩
  commute := by
    intro bytes start stop h
    have hstart := ((Image.bears_of_decode h).set (.start start)).set (.stop stop)
    have hstop := ((Image.bears_of_decode h).set (.stop stop)).set (.start start)
    exact hstart.ext hstop
  last := ControlBlock.setAll_eq block

/-- the bytes of a block, least significant first -/
example : ControlBlock.encode { flags := 0x0102, start := 0x18, stop := 0x29 }
    = [0x52, 0x49, 0x4E, 0x47, 0x02, 0x01, 0, 0, 0x18, 0, 0, 0, 0, 0, 0, 0, 0x29, 0, 0, 0, 0, 0, 0, 0] := by decide

end CircularLog
