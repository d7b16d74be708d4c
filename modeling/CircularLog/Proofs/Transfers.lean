/-
A transfer is one on a circular array of bytes. The byte at an offset has one place in the file, behind the control
block and modulo the capacity; a transfer goes to the places of its bytes in order, whether that takes one segment or
two, and leaves every other byte of the file as it was.

- `Region.place`: the place of the byte at an offset; `Region.exists_place`: every byte of the data is at one.
- `Region.places_stretch`: the segments of a transfer run through the places of its bytes, in order.
- `Region.getElem?_circle`: the byte at a place is the byte of the turned circle.
- `Region.write_eq`, `Region.write_at`, `Region.write_elsewhere`: what is written, byte by byte.
- `Region.write_append`: two transfers one behind the other are one.
- `transfers_circular`: all of it, for every capacity, offset and length.
-/
import CircularLog.Proofs.Step

namespace CircularLog

/-- the places in the file that a segment has, in order -/
def Segment.places (segment : Segment) : List Nat := List.range' segment.position segment.length

/-- no byte of the file is in both -/
def Segment.Apart (first second : Segment) : Prop :=
  first.position + first.length ≤ second.position ∨ second.position + second.length ≤ first.position

namespace Region

/-! ## Places -/

/-- where in the file the byte at an offset is -/
def place (capacity offset : Nat) : Nat := Span.base + offset % capacity

/-- and those of as many bytes from the offset on -/
def places (capacity offset length : Nat) : List Nat := (List.range length).map fun i => place capacity (offset + i)

section Places

variable {capacity offset length i position : Nat}

theorem places_add (capacity offset first second : Nat) :
    places capacity offset (first + second) = places capacity offset first
      ++ places capacity (offset + first) second := by
  simp only [places, List.range_add, List.map_append, List.map_map, Function.comp_def, Nat.add_assoc]

/-- up to the end of the data the places follow one another -/
theorem place_add (h : offset % capacity + i < capacity) : place capacity (offset + i) = place capacity offset + i := by
  rw [place, place, ← Nat.mod_add_mod, Nat.mod_eq_of_lt h, Nat.add_assoc]

/-- what is behind the control block is at one of `capacity` places, seen from any offset -/
theorem exists_place (hpos : 0 < capacity) (hbase : Span.base ≤ position) (hend : position < Span.base + capacity)
    (offset : Nat) :
    ∃ i < capacity, position = place capacity (offset + i) := by
  have hoffset : offset % capacity < capacity := Nat.mod_lt _ hpos
  refine ⟨Circle.way capacity (offset % capacity) (position - Span.base), Circle.way_lt hoffset, ?_⟩
  rw [place, ← Nat.mod_add_mod, Circle.add_way hoffset (by omega)]
  omega

/-- a segment that ends with the data or before -/
theorem places_segment (hposition : position = place capacity offset) (h : offset % capacity + length ≤ capacity) :
    (Segment.mk position length).places = places capacity offset length := by
  rw [Segment.places, List.range'_eq_map_range, places]
  apply List.map_congr_left
  intro i hi
  have hlt : i < length := List.mem_range.1 hi
  rw [place_add (by omega), hposition]

/-- one segment or two: the places of the bytes, in order -/
theorem places_stretch (hpos : 0 < capacity) (hlength : length ≤ capacity) :
    (stretch capacity offset length).flatMap Segment.places = places capacity offset length := by
  have hoffset : offset % capacity < capacity := Nat.mod_lt _ hpos
  have hfirst : Span.base + offset % capacity = place capacity offset := rfl
  rw [stretch]
  split
  · rw [List.flatMap_singleton, places_segment hfirst (by omega)]
  · -- the second segment begins where the offset has come round to the first byte of the data
    have hturn : (offset + (capacity - offset % capacity)) % capacity = 0 := by
      rw [← Nat.mod_add_mod, Nat.add_sub_cancel' hoffset.le, Nat.mod_self]
    have hsecond : Span.base = place capacity (offset + (capacity - offset % capacity)) := by
      rw [place, hturn, Nat.add_zero]
    have hlengths : length = capacity - offset % capacity + (length - (capacity - offset % capacity)) := by omega
    rw [List.flatMap_cons, List.flatMap_singleton, places_segment hfirst (by omega), places_segment hsecond (by omega),
      ← places_add, ← hlengths]

theorem apart_stretch (hpos : 0 < capacity) (hlength : length ≤ capacity) :
    (stretch capacity offset length).Pairwise Segment.Apart := by
  have hoffset : offset % capacity < capacity := Nat.mod_lt _ hpos
  rw [stretch]
  split
  · exact List.pairwise_singleton _ _
  · simp only [List.pairwise_pair, Segment.Apart]
    omega

theorem stretch_within (hpos : 0 < capacity) (hlength : length ≤ capacity) :
    ∀ segment ∈ stretch capacity offset length,
      Span.base ≤ segment.position ∧ segment.position + segment.length ≤ Span.base + capacity := by
  have hoffset : offset % capacity < capacity := Nat.mod_lt _ hpos
  intro segment hsegment
  rw [stretch] at hsegment
  split at hsegment
  · obtain rfl := List.mem_singleton.1 hsegment
    simp only
    omega
  · rcases List.mem_pair.1 hsegment with rfl | rfl
    · simp only
      omega
    · simp only
      omega

theorem sum_stretch : ((stretch capacity offset length).map Segment.length).sum = length := by
  rw [stretch]
  split
  · simp
  · simp only [List.map_cons, List.map_nil, List.sum_cons, List.sum_nil]
    omega

/-- the segments are those of the split -/
theorem split_stretch (hpos : 0 < capacity) (hbound : Span.base + capacity ≤ Word.bound) (offset length : Nat) :
    ∃ span, Span.split offset length capacity = .ok span ∧ span.segments = stretch capacity offset length := by
  refine ⟨_, Span.split_eq_ok hpos hbound, ?_⟩
  rw [stretch]
  split <;> rfl

end Places

/-! ## Transfers -/

section Transfers

variable {image : Image} {capacity offset i position : Nat} {data first second : Bytes}

/-- the byte at a place, as the turned circle has it -/
theorem getElem?_circle (hsize : image.size = ControlBlock.size + capacity) (hi : i < capacity) :
    (image.circle.rotate offset)[i]? = image.toBytes[place capacity (offset + i)]? := by
  have hcircle := Image.length_circle_eq hsize
  rw [List.getElem?_rotate (by omega), hcircle, Image.circle, List.getElem?_drop, Nat.add_comm i, place]
  rfl

theorem write_eq (hpos : 0 < capacity) (hsize : image.size = ControlBlock.size + capacity)
    (hfile : image.size ≤ Image.maxSize) (hlength : data.length ≤ capacity) :
    write image capacity offset data = .ok (scatter image (stretch capacity offset data.length) data) := by
  rw [write, locate_eq_ok hpos hlength (hsize ▸ hfile)]
  rfl

theorem write_at (hpos : 0 < capacity) (hsize : image.size = ControlBlock.size + capacity)
    (hlength : data.length ≤ capacity) (hi : i < data.length) :
    (scatter image (stretch capacity offset data.length) data).toBytes[place capacity (offset + i)]? = data[i]? := by
  obtain ⟨hkept, -, hlaid⟩ := scatter_stretch offset hsize hpos hlength
  have hread := @getElem?_lay_within (image.circle.rotate offset) data 0 i (Nat.zero_le _) hi
  rwa [Nat.zero_add, ← hlaid, getElem?_circle (hkept.trans hsize) (by omega)] at hread

theorem write_elsewhere (hpos : 0 < capacity) (hsize : image.size = ControlBlock.size + capacity)
    (hlength : data.length ≤ capacity) (hother : ∀ i < data.length, position ≠ place capacity (offset + i)) :
    (scatter image (stretch capacity offset data.length) data).toBytes[position]? = image.toBytes[position]? := by
  obtain ⟨hkept, hhead, hlaid⟩ := scatter_stretch offset hsize hpos hlength
  have hbase : Span.base = ControlBlock.size := rfl
  rcases Nat.lt_or_ge position Span.base with hblock | hblock
  · rw [← List.getElem?_take_of_lt hblock, ← List.getElem?_take_of_lt (l := image.toBytes) hblock]
    exact congrArg (·[position]?) hhead
  rcases Nat.lt_or_ge position image.size with hwithin | hpast
  · -- among the places seen from the offset, it is one behind the data
    obtain ⟨i, hi, rfl⟩ := exists_place hpos hblock (by omega) offset
    have hbehind : data.length ≤ i := Nat.le_of_not_lt fun hlt => hother i hlt rfl
    have hcircle := Image.length_circle_eq hsize
    have hsame :=
      @getElem?_lay (image.circle.rotate offset) data 0 i (by rw [List.length_rotate]; omega) (.inr (by omega))
    rwa [← hlaid, getElem?_circle (hkept.trans hsize) hi, getElem?_circle hsize hi] at hsame
  · rw [List.getElem?_eq_none (by rw [Image.length_toBytes]; omega),
      List.getElem?_eq_none (by rwa [Image.length_toBytes])]

theorem write_append (hpos : 0 < capacity) (hsize : image.size = ControlBlock.size + capacity)
    (hlength : first.length + second.length ≤ capacity) :
    scatter image (stretch capacity offset (first ++ second).length) (first ++ second)
      = scatter (scatter image (stretch capacity offset first.length) first)
          (stretch capacity (offset + first.length) second.length) second := by
  have hjoint : (first ++ second).length ≤ capacity := by rwa [List.length_append]
  have hturned : (image.circle.rotate offset).length = capacity := by
    rw [List.length_rotate, Image.length_circle_eq hsize]
  obtain ⟨-, hhead, hlaid⟩ := scatter_stretch offset hsize hpos hjoint
  obtain ⟨hsize₁, hhead₁, hlaid₁⟩ := scatter_stretch offset hsize hpos (show first.length ≤ capacity by omega)
  obtain ⟨-, hhead₂, -⟩ := scatter_stretch (offset + first.length) (hsize₁.trans hsize) hpos
    (show second.length ≤ capacity by omega)
  have hlaid₂ := circle_scatter (hsize₁.trans hsize) hpos (show (offset + first.length) % capacity = _ from rfl) hlength
  have hbehind : lay (lay (image.circle.rotate offset) 0 first) (0 + first.length) second
      = lay (image.circle.rotate offset) 0 (first ++ second) := lay_behind (by omega)
  rw [Nat.zero_add] at hbehind
  apply Image.ext_head_circle (hhead.trans (hhead₂.trans hhead₁).symm)
  apply List.rotate_injective offset
  show List.rotate _ offset = List.rotate _ offset
  rw [hlaid, hlaid₂, hlaid₁, hbehind]

/-- a transfer of more bytes than there are places -/
theorem locate_too_long {length : Nat} (h : capacity < length) :
    locate capacity offset length = refuse (.transferTooLong length) := by
  rw [locate, span, if_pos h]
  rfl

end Transfers

/-- the data of the file are an array of `capacity` bytes, whose indices go round -/
structure Circular (image : Image) (capacity offset : Nat) : Prop where
  /-- each byte goes to its place, and no other byte of the file changes -/
  stores : ∀ data : Bytes, data.length ≤ capacity → ∃ stored, write image capacity offset data = .ok stored
    ∧ stored.size = image.size
    ∧ (∀ i < data.length, stored.toBytes[place capacity (offset + i)]? = data[i]?)
    ∧ ∀ position, (∀ i < data.length, position ≠ place capacity (offset + i)) →
        stored.toBytes[position]? = image.toBytes[position]?
  /-- the bytes at the places, in order -/
  loads : ∀ length ≤ capacity, ∃ bytes, read image capacity offset length = (bytes, .ok ()) ∧ bytes.length = length
    ∧ ∀ i < length, bytes[i]? = image.toBytes[place capacity (offset + i)]?
  /-- the segments have no byte in common, keep to the data, and run through the places in order -/
  splits : ∀ length ≤ capacity, ∃ span, Span.split offset length capacity = .ok span
    ∧ span.segments.Pairwise Segment.Apart
    ∧ (∀ segment ∈ span.segments,
        Span.base ≤ segment.position ∧ segment.position + segment.length ≤ Span.base + capacity)
    ∧ (span.segments.map Segment.length).sum = length
    ∧ span.segments.flatMap Segment.places = places capacity offset length
  /-- a transfer in two parts is one transfer -/
  joins : ∀ first second : Bytes, first.length + second.length ≤ capacity →
    write image capacity offset (first ++ second) = (do
      let between ← write image capacity offset first
      write between capacity (offset + first.length) second)
  /-- more bytes than there are places are refused before one of them is read or written -/
  refuses : ∀ length, capacity < length → ∃ refusal : Refusal, (∀ path, (refusal.report path).kind = .invalidState)
    ∧ read image capacity offset length = ([], refuse refusal)
    ∧ ∀ data : Bytes, data.length = length → write image capacity offset data = refuse refusal

end Region

/-- **Transfers are on a circular array.** Whatever the capacity, the offset and the bytes of the file. -/
theorem transfers_circular {image : Image} {capacity : Nat} (hpos : 0 < capacity)
    (hsize : image.size = ControlBlock.size + capacity) (hfile : image.size ≤ Image.maxSize) (offset : Nat) :
    Region.Circular image capacity offset where
  stores data hlength := by
    refine ⟨_, Region.write_eq hpos hsize hfile hlength, ?_, ?_, ?_⟩
    · exact (Region.scatter_stretch offset hsize hpos hlength).1
    · exact fun i hi => Region.write_at hpos hsize hlength hi
    · exact fun position hother => Region.write_elsewhere hpos hsize hlength hother
  loads length hlength := by
    have hcircle := Image.length_circle_eq hsize
    refine ⟨_, Region.read_eq_ok hsize hfile hpos hlength, ?_, ?_⟩
    · rw [List.length_take, List.length_rotate, hcircle, Nat.min_eq_left hlength]
    · intro i hi
      rw [List.getElem?_take_of_lt hi, Region.getElem?_circle hsize (by omega)]
  splits length hlength := by
    have hbound : Span.base + capacity ≤ Word.bound := (hsize ▸ hfile).trans (by decide)
    obtain ⟨span, hspan, hsegments⟩ := Region.split_stretch hpos hbound offset length
    refine ⟨span, hspan, ?_, ?_, ?_, ?_⟩ <;> rw [hsegments]
    · exact Region.apart_stretch hpos hlength
    · exact Region.stretch_within hpos hlength
    · exact Region.sum_stretch
    · exact Region.places_stretch hpos hlength
  joins first second hlength := by
    have hfirst : first.length ≤ capacity := by omega
    have hsize₁ := (Region.scatter_stretch offset hsize hpos hfirst).1
    rw [Region.write_eq hpos hsize hfile (by rwa [List.length_append]), Region.write_eq hpos hsize hfile hfirst,
      Region.write_append hpos hsize hlength]
    exact (Region.write_eq hpos (hsize₁.trans hsize) (hsize₁.trans_le hfile) (by omega)).symm
  refuses length hlong := by
    refine ⟨.transferTooLong length, fun path => rfl, ?_, ?_⟩
    · rw [Region.read, Region.locate_too_long hlong]
      rfl
    · rintro data rfl
      rw [Region.write, Region.locate_too_long hlong]
      rfl

/-- eight bytes of data, the numbers from 0 to 7 -/
def countingImage : Image := .ofBytes (ControlBlock.encode {} ++ [0, 1, 2, 3, 4, 5, 6, 7])

/-- five bytes from an offset of 22: two at the end of the data and three at their beginning -/
theorem transfers_circular_turning :
    (0 < 8 ∧ countingImage.size = ControlBlock.size + 8 ∧ countingImage.size ≤ Image.maxSize)
      ∧ Region.Circular countingImage 8 22
      ∧ Region.write countingImage 8 22 [10, 11, 12, 13, 14]
        = .ok (.ofBytes (ControlBlock.encode {} ++ [12, 13, 14, 3, 4, 5, 10, 11])) := by
  have hsize : countingImage.size = ControlBlock.size + 8 := by decide +kernel
  have hfile : countingImage.size ≤ Image.maxSize := by decide +kernel
  exact ⟨⟨by decide, hsize, hfile⟩, transfers_circular (by decide) hsize hfile 22, by decide +kernel⟩

end CircularLog
