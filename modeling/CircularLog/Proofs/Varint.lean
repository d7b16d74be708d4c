/-
Facts about length prefixes that the theory of frames rests on.

- `size_le_iff`: a number takes at most `n` bytes exactly when it is below `128 ^ n`.
- `length_encode`: the size is the length of the encoding.
- `decode_encode`: an encoding is read back, whatever follows it.
- `decode_ok`: what any prefix that decodes takes: at least a byte, no more than there is, at most ten, and never less
  than the shortest encoding of its value.
-/
import CircularLog.Ring.Basic
import Mathlib.Tactic

namespace CircularLog

namespace Varint

theorem size_pos (value : Nat) : 0 < size value := by
  unfold size
  omega

theorem size_le_iff {value n : Nat} (hn : 0 < n) : size value ≤ n ↔ value < 128 ^ n := by
  have hbits : size value ≤ n ↔ value.log2 < 7 * n := by
    unfold size
    omega
  rw [hbits, show (128 : Nat) = 2 ^ 7 by norm_num, ← pow_mul]
  by_cases hvalue : value = 0
  · subst hvalue
    rw [Nat.log2_zero]
    constructor
    · intro _
      positivity
    · intro _
      omega
  · exact Nat.log2_lt hvalue

theorem size_eq_one {value : Nat} (h : value < 128) : size value = 1 :=
  le_antisymm ((size_le_iff one_pos).2 (by simpa using h)) (size_pos value)

theorem size_mono : Monotone size := by
  intro value other h
  have hother : other < 128 ^ size other := (size_le_iff (size_pos other)).1 le_rfl
  exact (size_le_iff (size_pos other)).2 (h.trans_lt hother)

/-- every group of seven bits takes one byte more -/
theorem size_eq_succ {value : Nat} (h : 128 ≤ value) : size value = size (value / 128) + 1 := by
  have hle : ∀ n, 0 < n → (size value ≤ n + 1 ↔ size (value / 128) ≤ n) := by
    intro n hn
    rw [size_le_iff (Nat.succ_pos n), size_le_iff hn, pow_succ, Nat.div_lt_iff_lt_mul (by norm_num)]
  have hmore : 1 < size value := by
    by_contra hfew
    have := (size_le_iff one_pos).1 (Nat.le_of_not_lt hfew)
    omega
  apply le_antisymm
  · exact (hle _ (size_pos _)).2 le_rfl
  · have := (hle (size value - 1) (by omega)).1 (by omega)
    omega

theorem size_le_maxSize {value : Nat} (h : value < Word.bound) : size value ≤ maxSize := by
  refine (size_le_iff (by decide)).2 (h.trans ?_)
  norm_num [Word.bound, maxSize]

theorem length_encodeGroups {fuel value : Nat} (h : value < 128 ^ fuel) (hfuel : 0 < fuel) :
    (encodeGroups fuel value).length = size value := by
  induction fuel generalizing value with
  | zero => omega
  | succ fuel ih =>
    rw [encodeGroups]
    split
    · rename_i hlast
      rw [size_eq_one hlast]
      rfl
    · rename_i hmore
      have hrest : value / 128 < 128 ^ fuel := by
        rw [Nat.div_lt_iff_lt_mul (by norm_num), ← pow_succ]
        exact h
      have hpos : 0 < fuel := by
        by_contra hzero
        obtain rfl : fuel = 0 := by omega
        omega
      rw [List.length_cons, ih hrest hpos, size_eq_succ (Nat.le_of_not_lt hmore)]

theorem length_encode {value : Nat} (h : value < Word.bound) : (encode value).length = size value :=
  length_encodeGroups (h.trans (by norm_num [Word.bound, maxSize])) (by decide)

/-- a group counts by its place -/
theorem shift_group (group count : Nat) : group <<< (7 * count) = group * 128 ^ count := by
  rw [Nat.shiftLeft_eq, show (128 : Nat) = 2 ^ 7 by norm_num, pow_mul]

/-- reading back the groups of a number, after `count` groups that gave `low` -/
theorem decodeFrom_encodeGroups {fuel count low value : Nat} (rest : Bytes) (hfuel : 0 < fuel)
    (hten : count + fuel = maxSize) (hbits : value * 128 ^ count < Word.bound) (hgroups : value < 128 ^ fuel) :
    decodeFrom count low (encodeGroups fuel value ++ rest) = .ok (low + value * 128 ^ count, count + size value) := by
  induction fuel generalizing count low value with
  | zero => omega
  | succ fuel ih =>
    have hcount : count ≠ maxSize := by omega
    rw [encodeGroups]
    split
    · rename_i hlast
      have hbyte : (UInt8.ofNat value).toNat = value := by
        rw [UInt8.toNat_ofNat']
        omega
      have hgroup : value % 128 = value := Nat.mod_eq_of_lt hlast
      -- the tenth group has room for one bit only, which the bound on the number sees to
      have htenth : ¬(count = maxSize - 1 ∧ 1 < value) := by
        rintro ⟨rfl, htwo⟩
        have := Nat.mul_le_mul_right (128 ^ (maxSize - 1)) htwo
        norm_num [Word.bound, maxSize] at this hbits
        omega
      rw [List.singleton_append, decodeFrom, hbyte, hgroup, shift_group]
      simp only [if_neg hcount, if_neg htenth, if_pos hlast, size_eq_one hlast]
    · rename_i hmore
      have hbyte : (UInt8.ofNat (value % 128 + 128)).toNat = value % 128 + 128 := by
        rw [UInt8.toNat_ofNat']
        omega
      have hgroup : (value % 128 + 128) % 128 = value % 128 := by omega
      have hpos : 0 < fuel := by
        by_contra hzero
        obtain rfl : fuel = 0 := by omega
        omega
      have hsplit : value % 128 * 128 ^ count + value / 128 * 128 ^ (count + 1) = value * 128 ^ count := by
        conv_rhs => rw [← Nat.mod_add_div value 128]
        ring
      have hrest : value / 128 < 128 ^ fuel := by
        rw [Nat.div_lt_iff_lt_mul (by norm_num), ← pow_succ]
        exact hgroups
      rw [List.cons_append, decodeFrom, hbyte, hgroup, shift_group, if_neg hcount, if_neg (by omega), if_neg (by omega),
        ih hpos (by omega) (by omega) hrest, size_eq_succ (Nat.le_of_not_lt hmore)]
      congr 2
      · omega
      · omega

theorem decode_encode {value : Nat} (h : value < Word.bound) (rest : Bytes) :
    decode (encode value ++ rest) = .ok (value, size value) := by
  have hgroups : value < 128 ^ maxSize := h.trans (by norm_num [Word.bound, maxSize])
  have hread : decodeFrom 0 0 (encodeGroups maxSize value ++ rest) = .ok (0 + value * 128 ^ 0, 0 + size value) :=
    decodeFrom_encodeGroups rest (by decide) (Nat.zero_add maxSize) (by simpa using h) hgroups
  simpa [decode, encode] using hread

theorem decodeFrom_ok {count low value taken : Nat} {bytes : Bytes} (hcount : count ≤ maxSize)
    (hlow : low < 128 ^ count) (h : decodeFrom count low bytes = .ok (value, taken)) :
    count < taken ∧ taken ≤ count + bytes.length ∧ taken ≤ maxSize ∧ value < 128 ^ taken := by
  induction bytes generalizing count low with
  | nil => simp [decodeFrom] at h
  | cons b rest ih =>
    have hgroup : b.toNat % 128 < 128 := Nat.mod_lt _ (by norm_num)
    have hnext : low + b.toNat % 128 * 128 ^ count < 128 ^ (count + 1) := by
      have := Nat.mul_le_mul_right (128 ^ count) (Nat.le_of_lt_succ hgroup)
      rw [pow_succ]
      omega
    rw [decodeFrom, shift_group] at h
    split_ifs at h with hten htenth hlast
    · obtain ⟨rfl, rfl⟩ : low + b.toNat % 128 * 128 ^ count = value ∧ count + 1 = taken := by simpa using h
      rw [List.length_cons]
      exact ⟨by omega, by omega, by omega, hnext⟩
    · obtain ⟨hfirst, hlength, hmax, hvalue⟩ := ih (by omega) hnext h
      rw [List.length_cons]
      exact ⟨by omega, by omega, hmax, hvalue⟩

theorem decode_ok {bytes : Bytes} {value taken : Nat} (h : decode bytes = .ok (value, taken)) :
    0 < taken ∧ taken ≤ bytes.length ∧ taken ≤ maxSize ∧ size value ≤ taken := by
  obtain ⟨hpos, hlength, hmax, hvalue⟩ := decodeFrom_ok (Nat.zero_le _) (by norm_num) h
  exact ⟨hpos, by omega, hmax, (size_le_iff hpos).2 hvalue⟩

end Varint

/-! ## Frames -/

theorem frameLength_eq (payload : Nat) : frameLength payload = Varint.size payload + payload := rfl

theorem frameLength_pos (payload : Nat) : 0 < frameLength payload := Nat.add_pos_left (Varint.size_pos payload) _

theorem le_frameLength (payload : Nat) : payload ≤ frameLength payload := Nat.le_add_left _ _

/-- a prefix never gets shorter, and the bytes get more -/
theorem frameLength_strictMono : StrictMono frameLength := Varint.size_mono.add_strictMono strictMono_id

end CircularLog
