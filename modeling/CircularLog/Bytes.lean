/-
Byte strings, and whole numbers stored in a fixed number of bytes, least significant byte first.

- `LittleEndian.encode_decode`: storing what was read from `width` bytes gives those bytes.
-/

namespace CircularLog

abbrev Bytes := List UInt8

namespace LittleEndian

/-- the `width` low bytes of a number, lowest first -/
def encode : Nat → Nat → Bytes
  | 0, _ => []
  | width + 1, value => UInt8.ofNat (value % 256) :: encode width (value / 256)

/-- the number that the bytes store -/
def decode : Bytes → Nat
  | [] => 0
  | b :: rest => b.toNat + 256 * decode rest

@[simp] theorem length_encode (width value : Nat) : (encode width value).length = width := by
  induction width generalizing value with
  | zero => rfl
  | succ width ih => simp [encode, ih]

theorem encode_decode (bytes : Bytes) : encode bytes.length (decode bytes) = bytes := by
  induction bytes with
  | nil => rfl
  | cons b rest ih =>
    have hb : b.toNat < 256 := b.toNat_lt
    have hmod : (b.toNat + 256 * decode rest) % 256 = b.toNat := by omega
    have hdiv : (b.toNat + 256 * decode rest) / 256 = decode rest := by omega
    rw [List.length_cons, decode, encode, hmod, hdiv, ih, UInt8.ofNat_toNat]

end LittleEndian

end CircularLog
