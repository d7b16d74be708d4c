/-
Length prefixes: a number below `2 ^ 64` in groups of seven bits, lowest group first, one group a byte. Every byte but
the last carries the continuation bit `128`, and no number takes more than ten bytes.

`size` is computed from the number's bits and not from `encode`, so that each checks the other. `decode` reads at most
ten bytes; it gives the number and how many bytes it took, and accepts encodings longer than the shortest one.
-/
import CircularLog.Bytes

namespace CircularLog.Varint

/-- the most bytes that a number takes -/
def maxSize : Nat := 10

inductive Error where
  /-- the input ended while the continuation bit was set -/
  | truncated
  /-- the number does not end within ten bytes, or does not fit in 64 bits -/
  | overflow
deriving DecidableEq, Repr

def Error.text : Error → String
  | .truncated => "truncated varint"
  | .overflow => "varint exceeds 64 bits"

/-- how many groups of seven hold the bits of the number; zero has one bit -/
def size (value : Nat) : Nat := (value.log2 + 7) / 7

/-- the number in at most `fuel` groups -/
def encodeGroups : Nat → Nat → Bytes
  | 0, _ => []
  | fuel + 1, value =>
    if value < 128 then [UInt8.ofNat value]
    else UInt8.ofNat (value % 128 + 128) :: encodeGroups fuel (value / 128)

def encode (value : Nat) : Bytes := encodeGroups maxSize value

/-- the encoding laid over the front of a buffer, or nothing when the buffer is too short -/
def encodeInto (value : Nat) (buffer : Bytes) : Option Bytes :=
  let encoded := encode value
  if encoded.length ≤ buffer.length then some (encoded ++ buffer.drop encoded.length) else none

/-- reads on after `count` bytes that all had the continuation bit and gave `value` so far -/
def decodeFrom (count value : Nat) : Bytes → Except Error (Nat × Nat)
  | [] => .error (if count < maxSize then .truncated else .overflow)
  | b :: rest =>
    let group := b.toNat % 128
    if count = maxSize then .error .overflow
    else if count = maxSize - 1 ∧ 1 < group then .error .overflow
    else if b.toNat < 128 then .ok (value + group <<< (7 * count), count + 1)
    else decodeFrom (count + 1) (value + group <<< (7 * count)) rest

/-- the number at the front of the bytes, and how many bytes it took -/
def decode (bytes : Bytes) : Except Error (Nat × Nat) := decodeFrom 0 0 bytes

end CircularLog.Varint
