/-
The control block: the first 24 bytes of a file. A mark, the flags, and the offsets at which the records start and stop,
each number least significant byte first. `decode` reads a whole block; the functions on an image read and set one field
in place, and agree with it.
-/
import CircularLog.Circle
import CircularLog.Image
import CircularLog.Span

namespace CircularLog

structure ControlBlock where
  flags : UInt32 := 0
  start : UInt64 := 0
  stop : UInt64 := 0
deriving DecidableEq, Repr

namespace ControlBlock

def size : Nat := Span.base

/-- the four letters that every file of this kind begins with -/
def mark : Bytes := [0x52, 0x49, 0x4E, 0x47]

def flagsPosition : Nat := 4

def startPosition : Nat := 8

def stopPosition : Nat := 16

def encode (block : ControlBlock) : Bytes :=
  mark ++ LittleEndian.encode 4 block.flags.toNat ++ LittleEndian.encode 8 block.start.toNat
    ++ LittleEndian.encode 8 block.stop.toNat

/-- the number in `width` bytes from the position on -/
def field (bytes : Bytes) (position width : Nat) : Nat := LittleEndian.decode ((bytes.drop position).take width)

def decode (bytes : Bytes) : Outcome ControlBlock :=
  if bytes.length < size then refuse .blockTooShort
  else if bytes.take mark.length ≠ mark then refuse .badMagic
  else .ok
    { flags := .ofNat (field bytes flagsPosition 4)
      start := .ofNat (field bytes startPosition 8)
      stop := .ofNat (field bytes stopPosition 8) }

/-- both offsets lie within the capacity -/
def validate (block : ControlBlock) (capacity : Nat) : Outcome Unit :=
  if capacity ≤ block.start.toNat then refuse (.startOutOfRange block.start.toNat)
  else if capacity ≤ block.stop.toNat then refuse (.stopOutOfRange block.stop.toNat)
  else .ok ()

/-- how many bytes of the circle hold records -/
def used (block : ControlBlock) (capacity : Nat) : Outcome Nat :=
  Circle.distance capacity block.start.toNat block.stop.toNat

@[simp] theorem length_encode (block : ControlBlock) : block.encode.length = size := by
  simp [encode, mark, size, Span.base]

end ControlBlock

namespace Image

/-- the number in `width` bytes from the position on -/
def number (image : Image) (position width : Nat) : Nat := LittleEndian.decode (image.slice position width)

def flags (image : Image) : Nat := image.number ControlBlock.flagsPosition 4

/-- the offset of the oldest record -/
def start (image : Image) : Nat := image.number ControlBlock.startPosition 8

/-- the offset after the newest record -/
def stop (image : Image) : Nat := image.number ControlBlock.stopPosition 8

/-- the control block as it stands in the file -/
def control (image : Image) : ControlBlock :=
  { flags := .ofNat image.flags, start := .ofNat image.start, stop := .ofNat image.stop }

def setStart (image : Image) (offset : Nat) : Image :=
  image.write ControlBlock.startPosition (LittleEndian.encode 8 offset)

def setStop (image : Image) (offset : Nat) : Image :=
  image.write ControlBlock.stopPosition (LittleEndian.encode 8 offset)

/-- a file that holds no record yet -/
def blank (capacity : Nat) : Image :=
  (Image.empty.resize (ControlBlock.size + capacity)).write 0 (ControlBlock.encode {})

end Image

end CircularLog
