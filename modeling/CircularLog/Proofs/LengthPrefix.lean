/-
Length prefixes, read and written. A prefix goes up to the first byte without the continuation bit, and states the sum
of its groups of seven bits, each counted by its place. `Varint.Spells` is that grammar, said without the loop that
reads it.

- `Varint.decode_eq_ok_iff`, `Varint.decode_eq_truncated_iff`: a prefix is read exactly if it is of the grammar, and is
  cut off exactly if there are fewer than ten bytes and all of them have the continuation bit.
- `Varint.decode_words`: on words of 64 bits, with shifts that may lose bits, the same is read.
- `decoder_accepts_its_grammar`: both, what else there is, and on how many of the bytes the answer rests.
- `Varint.eq_of_total_eq`: prefixes of one length that state the same number are the same bytes.
- `encoding_is_shortest`: what is written is read back, and every other prefix of its number is longer.
-/
import CircularLog.Proofs.Varint
import Mathlib.Data.Nat.Bitwise

namespace CircularLog

namespace Varint

/-- the byte has the continuation bit -/
def continues (b : UInt8) : Bool := 128 ≤ b.toNat

/-- the seven bits of a byte that belong to the number -/
def group (b : UInt8) : Nat := b.toNat % 128

/-- the exact sum of the groups, each counted by its place -/
def total (bytes : Bytes) : Nat := (bytes.mapIdx fun place b => group b * 128 ^ place).sum

/-- the `n`-th byte is the first without the continuation bit -/
def EndsAt (bytes : Bytes) (n : Nat) : Prop := ∃ place, bytes.findIdx? (!continues ·) = some place ∧ n = place + 1

/-- the first `n` bytes are a prefix, of ten bytes at most, for a number that 64 bits hold -/
structure Spells (bytes : Bytes) (value n : Nat) : Prop where
  few : n ≤ maxSize
  ends : EndsAt bytes n
  total_eq : total (bytes.take n) = value
  value_lt : value < Word.bound

/-- there are fewer than ten bytes, and all of them have the continuation bit -/
structure Unended (bytes : Bytes) : Prop where
  few : bytes.length < maxSize
  continued : ∀ b ∈ bytes, continues b

/-! ## The grammar -/

section Grammar

variable {b : UInt8} {bytes other rest : Bytes} {count low value n taken : Nat}

theorem group_lt (b : UInt8) : group b < 128 := Nat.mod_lt _ (by norm_num)

/-- a byte is its group and its continuation bit -/
theorem toNat_eq (b : UInt8) : b.toNat = group b + if continues b then 128 else 0 := by
  have hbyte := b.toNat_lt
  by_cases hcontinues : 128 ≤ b.toNat
  · simp only [group, continues, hcontinues, decide_true, if_true]
    omega
  · simp only [group, continues, hcontinues, decide_false, Bool.false_eq_true, if_false]
    omega

theorem total_nil : total [] = 0 := rfl

theorem total_cons (b : UInt8) (rest : Bytes) : total (b :: rest) = group b + total rest * 128 := by
  have hplaces : (rest.mapIdx fun place b => group b * 128 ^ (place + 1))
      = (rest.mapIdx fun place b => group b * 128 ^ place).map (· * 128) := by
    apply List.ext_getElem
    · simp
    · intro place _ _
      simp only [List.getElem_mapIdx, List.getElem_map, pow_succ, mul_assoc]
  rw [total, List.mapIdx_cons, List.sum_cons, hplaces, List.sum_map_mul_right, List.map_id', total, pow_zero, mul_one]

theorem endsAt_nil : ¬EndsAt [] n := by
  rintro ⟨place, hfind, -⟩
  cases hfind

theorem EndsAt.pos (h : EndsAt bytes n) : 0 < n := by
  obtain ⟨place, -, rfl⟩ := h
  exact place.succ_pos

/-- a byte with the continuation bit is followed by the rest of the prefix, and any other is its last -/
theorem endsAt_cons : EndsAt (b :: rest) (n + 1) ↔ if continues b then EndsAt rest n else n = 0 := by
  cases hb : continues b <;> simp [EndsAt, List.findIdx?_cons, hb, eq_comm]

/-- a byte has the continuation bit exactly if the prefix goes on behind it -/
theorem EndsAt.continues_eq (h : EndsAt (b :: rest) (n + 1)) : continues b = decide (0 < n) := by
  rw [endsAt_cons] at h
  cases hb : continues b with
  | false => simpa [hb] using h
  | true =>
    rw [hb, if_pos rfl] at h
    simpa using h.pos

theorem EndsAt.tail (h : EndsAt (b :: rest) (n + 1)) (hmore : 0 < n) : EndsAt rest n := by
  have hcontinues : continues b = true := by simpa [hmore] using h.continues_eq
  rwa [endsAt_cons, if_pos hcontinues] at h

/-- whether the first `n` bytes are a prefix is up to them -/
theorem EndsAt.congr (h : EndsAt bytes n) (hsame : other.take n = bytes.take n) : EndsAt other n := by
  induction bytes generalizing other n with
  | nil => exact absurd h endsAt_nil
  | cons b rest ih =>
    obtain ⟨n, rfl⟩ := Nat.exists_eq_add_one_of_ne_zero (Nat.ne_of_gt h.pos)
    cases other with
    | nil => simp at hsame
    | cons c others =>
      obtain ⟨rfl, hrest⟩ : c = b ∧ others.take n = rest.take n := by simpa using hsame
      rw [endsAt_cons] at h ⊢
      split
      · rename_i hmore
        exact ih (by rwa [if_pos hmore] at h) hrest
      · rename_i hlast
        rwa [if_neg hlast] at h

theorem Spells.congr (h : Spells bytes value n) (hsame : other.take n = bytes.take n) : Spells other value n :=
  ⟨h.few, h.ends.congr hsame, hsame ▸ h.total_eq, h.value_lt⟩

/-- prefixes of one length that state the same number are the same bytes -/
theorem eq_of_total_eq (h : EndsAt bytes n) (hother : EndsAt other n)
    (htotal : total (other.take n) = total (bytes.take n)) : other.take n = bytes.take n := by
  induction bytes generalizing other n with
  | nil => exact absurd h endsAt_nil
  | cons b rest ih =>
    obtain ⟨n, rfl⟩ := Nat.exists_eq_add_one_of_ne_zero (Nat.ne_of_gt h.pos)
    cases other with
    | nil => exact absurd hother endsAt_nil
    | cons c others =>
      rw [List.take_succ_cons, List.take_succ_cons, total_cons, total_cons] at htotal
      have hc := group_lt c
      have hb := group_lt b
      have hgroup : group c = group b := by omega
      have hbyte : c = b := by
        apply UInt8.toNat_inj.1
        rw [toNat_eq c, toNat_eq b, hgroup, h.continues_eq, hother.continues_eq]
      have hrest : others.take n = rest.take n := by
        rcases Nat.eq_zero_or_pos n with rfl | hmore
        · rfl
        · exact ih (h.tail hmore) (hother.tail hmore) (by omega)
      rw [List.take_succ_cons, List.take_succ_cons, hbyte, hrest]

end Grammar

/-! ## Reading -/

section Reading

variable {b : UInt8} {bytes other rest : Bytes} {count low value n taken : Nat} {e : Error}

/-- the loop, one byte further -/
theorem decodeFrom_cons (count low : Nat) (b : UInt8) (rest : Bytes) :
    decodeFrom count low (b :: rest)
      = if count = maxSize then .error .overflow
        else if count = maxSize - 1 ∧ 1 < group b then .error .overflow
        else if continues b then decodeFrom (count + 1) (low + group b * 128 ^ count) rest
        else .ok (low + group b * 128 ^ count, count + 1) := by
  rw [decodeFrom, shift_group]
  by_cases hmore : continues b
  · have hcontinued : ¬b.toNat < 128 := by simpa [continues] using hmore
    simp only [if_neg hcontinued, if_pos hmore, group]
  · have hlast : b.toNat < 128 := by simpa [continues] using hmore
    simp only [if_pos hlast, if_neg hmore, group]

theorem next_lt_pow (hlow : low < 128 ^ count) (b : UInt8) : low + group b * 128 ^ count < 128 ^ (count + 1) := by
  have hgroup := Nat.mul_le_mul_right (128 ^ count) (Nat.le_of_lt_succ (group_lt b))
  rw [pow_succ]
  omega

/-- nine groups and the one bit that the tenth may add are a number of 64 bits, and fewer groups are too -/
theorem next_lt_bound (hcount : count < maxSize) (hlow : low < 128 ^ count)
    (htenth : ¬(count = maxSize - 1 ∧ 1 < group b)) : low + group b * 128 ^ count < Word.bound := by
  have hbound : Word.bound = 2 * 128 ^ (maxSize - 1) := by norm_num [Word.bound, maxSize]
  rcases Nat.eq_or_lt_of_le (Nat.le_sub_one_of_lt hcount) with rfl | hfewer
  · have hgroup := Nat.mul_le_mul_right (128 ^ (maxSize - 1)) (Nat.le_of_not_lt fun htwo => htenth ⟨rfl, htwo⟩)
    omega
  · have hnext := next_lt_pow hlow b
    have hpow : 128 ^ (count + 1) ≤ 128 ^ (maxSize - 1) := Nat.pow_le_pow_right (by norm_num) hfewer
    omega

/-- the first byte adds its group, and the others count by a place more -/
theorem add_total_cons (low count : Nat) (b : UInt8) (rest : Bytes) (n : Nat) :
    low + total ((b :: rest).take (n + 1)) * 128 ^ count
      = low + group b * 128 ^ count + total (rest.take n) * 128 ^ (count + 1) := by
  rw [List.take_succ_cons, total_cons, pow_succ]
  ring

/-- reading on after `count` bytes that gave `low` -/
theorem decodeFrom_eq_ok_iff (hcount : count ≤ maxSize) (hlow : low < 128 ^ count) :
    decodeFrom count low bytes = .ok (value, taken)
      ↔ ∃ n, taken = count + n ∧ taken ≤ maxSize ∧ EndsAt bytes n ∧ low + total (bytes.take n) * 128 ^ count = value
        ∧ value < Word.bound := by
  induction bytes generalizing count low with
  | nil => simp [decodeFrom, endsAt_nil]
  | cons b rest ih =>
    rw [decodeFrom_cons]
    split_ifs with hten htenth hmore
    · -- there are ten bytes already
      constructor
      · intro hread
        cases hread
      · rintro ⟨n, rfl, hmax, hends, -⟩
        have hpos := hends.pos
        omega
    · -- the tenth has too much
      constructor
      · intro hread
        cases hread
      · rintro ⟨n, rfl, hmax, hends, rfl, hvalue⟩
        obtain ⟨n, rfl⟩ := Nat.exists_eq_add_one_of_ne_zero (Nat.ne_of_gt hends.pos)
        obtain ⟨rfl, hgroup⟩ := htenth
        have htwo := Nat.mul_le_mul_right (128 ^ (maxSize - 1)) hgroup
        rw [add_total_cons] at hvalue
        norm_num [Word.bound, maxSize] at hvalue htwo
        omega
    · rw [ih (by omega) (next_lt_pow hlow b)]
      constructor
      · rintro ⟨n, rfl, hmax, hends, rfl, hvalue⟩
        refine ⟨n + 1, by omega, hmax, ?_, add_total_cons low count b rest n, hvalue⟩
        rwa [endsAt_cons, if_pos hmore]
      · rintro ⟨n, rfl, hmax, hends, rfl, hvalue⟩
        obtain ⟨n, rfl⟩ := Nat.exists_eq_add_one_of_ne_zero (Nat.ne_of_gt hends.pos)
        rw [add_total_cons] at hvalue ⊢
        rw [endsAt_cons, if_pos hmore] at hends
        exact ⟨n, by omega, hmax, hends, rfl, hvalue⟩
    · have hbound := next_lt_bound (by omega) hlow htenth
      constructor
      · intro hread
        obtain ⟨rfl, rfl⟩ := Prod.mk.inj (Except.ok.inj hread)
        refine ⟨1, rfl, by omega, ?_, ?_, hbound⟩
        · rw [endsAt_cons, if_neg hmore]
        · rw [add_total_cons, List.take_zero, total_nil, zero_mul, add_zero]
      · rintro ⟨n, rfl, hmax, hends, rfl, -⟩
        obtain ⟨n, rfl⟩ := Nat.exists_eq_add_one_of_ne_zero (Nat.ne_of_gt hends.pos)
        rw [endsAt_cons, if_neg hmore] at hends
        subst hends
        rw [add_total_cons, List.take_zero, total_nil, zero_mul, add_zero]

theorem decodeFrom_eq_truncated_iff :
    decodeFrom count low bytes = .error .truncated ↔ count + bytes.length < maxSize ∧ ∀ b ∈ bytes, continues b := by
  induction bytes generalizing count low with
  | nil => simp [decodeFrom]
  | cons b rest ih =>
    rw [decodeFrom_cons, List.length_cons, List.forall_mem_cons]
    split_ifs with hten htenth hmore
    · constructor
      · intro hread
        cases hread
      · rintro ⟨hfew, -⟩
        omega
    · constructor
      · intro hread
        cases hread
      · rintro ⟨hfew, -⟩
        omega
    · rw [ih, add_assoc, add_comm 1]
      simp only [hmore, true_and]
    · simp only [hmore, Bool.false_eq_true, false_and, and_false]

/-- the loop looks at no more than ten bytes in all -/
theorem decodeFrom_take (hcount : count ≤ maxSize) :
    decodeFrom count low (bytes.take (maxSize - count)) = decodeFrom count low bytes := by
  induction bytes generalizing count low with
  | nil => rw [List.take_nil]
  | cons b rest ih =>
    rcases Nat.eq_or_lt_of_le hcount with rfl | hmore
    · rw [Nat.sub_self, List.take_zero, decodeFrom_cons, if_pos rfl, decodeFrom, if_neg (lt_irrefl _)]
    · obtain ⟨left, hleft⟩ : ∃ left, maxSize - count = left + 1 := ⟨maxSize - count - 1, by omega⟩
      have hrest : decodeFrom (count + 1) (low + group b * 128 ^ count) (rest.take left)
          = decodeFrom (count + 1) (low + group b * 128 ^ count) rest := by
        rw [← ih hmore, show maxSize - (count + 1) = left by omega]
      rw [hleft, List.take_succ_cons, decodeFrom_cons, decodeFrom_cons, hrest]

theorem decode_eq_ok_iff : decode bytes = .ok (value, n) ↔ Spells bytes value n := by
  rw [decode, decodeFrom_eq_ok_iff (Nat.zero_le _) (by norm_num)]
  constructor
  · rintro ⟨n, rfl, hfew, hends, htotal, hvalue⟩
    rw [zero_add] at hfew ⊢
    exact ⟨hfew, hends, by simpa using htotal, hvalue⟩
  · intro hspells
    exact ⟨n, (zero_add n).symm, hspells.few, hspells.ends, by simpa using hspells.total_eq, hspells.value_lt⟩

theorem decode_eq_truncated_iff : decode bytes = .error .truncated ↔ Unended bytes := by
  rw [decode, decodeFrom_eq_truncated_iff, zero_add]
  exact ⟨fun h => ⟨h.1, h.2⟩, fun h => ⟨h.few, h.continued⟩⟩

/-- all else is an overflow -/
theorem decode_eq_overflow_iff :
    decode bytes = .error .overflow ↔ (¬∃ value n, Spells bytes value n) ∧ ¬Unended bytes := by
  simp only [← decode_eq_ok_iff, ← decode_eq_truncated_iff]
  rcases decode bytes with (_ | _) | ⟨value, n⟩
  · simp
  · simp
  · simp

theorem decode_take (bytes : Bytes) : decode (bytes.take maxSize) = decode bytes := decodeFrom_take (Nat.zero_le _)

end Reading

/-! ## Words of 64 bits -/

/-- the loop on words of 64 bits: a shift drops what goes past the highest bit, and a group is joined on bit by bit -/
def decodeWords (count : Nat) (value : UInt64) : Bytes → Except Error (UInt64 × Nat)
  | [] => .error (if count < maxSize then .truncated else .overflow)
  | b :: rest =>
    let group := (b &&& 0x7F).toUInt64
    if count = maxSize then .error .overflow
    else if count = maxSize - 1 ∧ 1 < group then .error .overflow
    else if b &&& 0x80 = 0 then .ok (value ||| group <<< UInt64.ofNat (7 * count), count + 1)
    else decodeWords (count + 1) (value ||| group <<< UInt64.ofNat (7 * count)) rest

section Words

variable {b : UInt8} {bytes rest : Bytes} {count n place : Nat} {value : UInt64}

theorem toNat_group (b : UInt8) : (b &&& 0x7F).toUInt64.toNat = group b := by
  rw [UInt8.toNat_toUInt64, UInt8.toNat_and]
  exact Nat.and_two_pow_sub_one_eq_mod b.toNat 7

theorem continues_iff (b : UInt8) : continues b = true ↔ ¬b &&& 0x80 = 0 := by
  have hbyte := b.toNat_lt
  have hbit : (b &&& 0x80).toNat = (b.toNat.testBit 7).toNat * 2 ^ 7 := by
    rw [UInt8.toNat_and]
    exact Nat.and_two_pow b.toNat 7
  have htest : b.toNat.testBit 7 = continues b := by
    rw [Nat.testBit_eq_decide_div_mod_eq, continues, decide_eq_decide]
    omega
  rw [← UInt8.toNat_inj, hbit, htest]
  cases continues b <;> simp

/-- a group loses no bit to the shift if what it counts by its place is a number of 64 bits -/
theorem toNat_shift (hplace : place < maxSize) (hfits : group b * 128 ^ place < Word.bound) :
    ((b &&& 0x7F).toUInt64 <<< UInt64.ofNat (7 * place)).toNat = group b * 128 ^ place := by
  have hshift : 7 * place < 64 := by
    simp only [maxSize] at hplace
    omega
  have hamount : (UInt64.ofNat (7 * place)).toNat % 64 = 7 * place := by
    rw [UInt64.toNat_ofNat']
    omega
  rw [UInt64.toNat_shiftLeft, hamount, toNat_group, shift_group]
  exact Nat.mod_eq_of_lt hfits

/-- a group that is joined on bit by bit is added -/
theorem toNat_join (hplace : place < maxSize) (hvalue : value.toNat < 128 ^ place)
    (hfits : value.toNat + group b * 128 ^ place < Word.bound) :
    (value ||| (b &&& 0x7F).toUInt64 <<< UInt64.ofNat (7 * place)).toNat = value.toNat + group b * 128 ^ place := by
  have hbelow : value.toNat < 2 ^ (7 * place) := by rwa [pow_mul]
  rw [UInt64.toNat_or, toNat_shift hplace (by omega), ← shift_group, Nat.or_comm,
    ← Nat.shiftLeft_add_eq_or_of_lt hbelow, Nat.add_comm]

theorem decodeFrom_words (hcount : count ≤ maxSize) (hvalue : value.toNat < 128 ^ count) :
    decodeFrom count value.toNat bytes = (decodeWords count value bytes).map (Prod.map UInt64.toNat id) := by
  induction bytes generalizing count value with
  | nil => rfl
  | cons b rest ih =>
    have hgroup : 1 < (b &&& 0x7F).toUInt64 ↔ 1 < group b := by
      rw [UInt64.lt_iff_toNat_lt, toNat_group]
      rfl
    rw [decodeFrom_cons, decodeWords]
    simp only [hgroup]
    split_ifs with hten htenth hmore hlast hlast
    · rfl
    · rfl
    · exact absurd hlast ((continues_iff b).1 hmore)
    · have hfits := next_lt_bound (by omega) hvalue htenth
      have hjoin := toNat_join (by omega) hvalue hfits
      have hnext := next_lt_pow hvalue b
      rw [← hjoin] at hnext ⊢
      exact ih (by omega) hnext
    · have hfits := next_lt_bound (by omega) hvalue htenth
      rw [← toNat_join (by omega) hvalue hfits]
      rfl
    · exact absurd ((continues_iff b).2 hlast) hmore

theorem decode_words (bytes : Bytes) : decode bytes = (decodeWords 0 0 bytes).map (Prod.map UInt64.toNat id) := by
  have hzero : (0 : UInt64).toNat < 128 ^ 0 := by decide
  exact decodeFrom_words (Nat.zero_le _) hzero

end Words

/-! ## What is read -/

/-- what the bytes are read as, and how many of them that rests on -/
structure Exact (bytes : Bytes) : Prop where
  accepted : ∀ value n, decode bytes = .ok (value, n) ↔ Spells bytes value n
  truncated : decode bytes = .error .truncated ↔ Unended bytes
  overflow : decode bytes = .error .overflow ↔ (¬∃ value n, Spells bytes value n) ∧ ¬Unended bytes
  /-- what is behind a prefix does not matter -/
  front : ∀ value n other, decode bytes = .ok (value, n) → other.take n = bytes.take n → decode other = .ok (value, n)
  /-- where there is no prefix, what is behind the tenth byte does not matter -/
  front_ten : ∀ e other, decode bytes = .error e → other.take maxSize = bytes.take maxSize → decode other = .error e
  /-- every group of a prefix is shifted to its place without the loss of a bit -/
  kept : ∀ value n place b, decode bytes = .ok (value, n) → (bytes.take n)[place]? = some b →
    ((b &&& 0x7F).toUInt64 <<< UInt64.ofNat (7 * place)).toNat = group b * 128 ^ place
  words : decode bytes = (decodeWords 0 0 bytes).map (Prod.map UInt64.toNat id)

section Exact

variable {b : UInt8} {bytes other : Bytes} {value n place : Nat} {e : Error}

theorem group_le_total (h : bytes[place]? = some b) : group b * 128 ^ place ≤ total bytes := by
  induction bytes generalizing place with
  | nil => simp at h
  | cons c rest ih =>
    rw [total_cons]
    cases place with
    | zero =>
      obtain rfl : c = b := by simpa using h
      omega
    | succ place =>
      have hrest := Nat.mul_le_mul_right 128 (ih (by simpa using h))
      rw [pow_succ, ← mul_assoc]
      omega

theorem Spells.kept (h : Spells bytes value n) (hbyte : (bytes.take n)[place]? = some b) :
    ((b &&& 0x7F).toUInt64 <<< UInt64.ofNat (7 * place)).toNat = group b * 128 ^ place := by
  have hplace : place < n := by
    have hlength := (List.getElem?_eq_some_iff.1 hbyte).1
    rw [List.length_take] at hlength
    omega
  have hle := group_le_total hbyte
  rw [h.total_eq] at hle
  exact toNat_shift (hplace.trans_le h.few) (hle.trans_lt h.value_lt)

end Exact

/-! ## What is written -/

/-- what is written for a number -/
structure Shortest (value : Nat) : Prop where
  size_pos : 0 < size value
  size_le : size value ≤ maxSize
  length_eq : (encode value).length = size value
  /-- a buffer gets as many bytes, and those behind them stay -/
  written : ∀ buffer : Bytes, size value ≤ buffer.length → ∃ after, encodeInto value buffer = some after
    ∧ after.length = buffer.length ∧ after.take (size value) = encode value
    ∧ after.drop (size value) = buffer.drop (size value)
  read_back : ∀ rest, decode (encode value ++ rest) = .ok (value, size value)
  /-- whatever is read as the number takes as many bytes, and no other takes as few -/
  least : ∀ bytes n, decode bytes = .ok (value, n) → size value ≤ n ∧ (n = size value ↔ bytes.take n = encode value)
  /-- no other encoding begins with this one -/
  apart : ∀ other, other < Word.bound → encode value <+: encode other → other = value

section Shortest

variable {value other n : Nat} {bytes buffer : Bytes}

theorem encodeInto_eq (h : value < Word.bound) (hroom : size value ≤ buffer.length) :
    encodeInto value buffer = some (encode value ++ buffer.drop (size value)) := by
  simp only [encodeInto, length_encode h, if_pos hroom]

theorem take_eq_encode (h : value < Word.bound) (hread : decode bytes = .ok (value, size value)) :
    bytes.take (size value) = encode value := by
  have hback := decode_encode h []
  rw [List.append_nil] at hback
  have hspelled := decode_eq_ok_iff.1 hback
  have hspells := decode_eq_ok_iff.1 hread
  have hsame := eq_of_total_eq hspelled.ends hspells.ends (hspells.total_eq.trans hspelled.total_eq.symm)
  rwa [← length_encode h, List.take_length, length_encode h] at hsame

theorem eq_of_encode_front (h : value < Word.bound) (hother : other < Word.bound)
    (hfront : encode value <+: encode other) :
    other = value := by
  obtain ⟨rest, hrest⟩ := hfront
  have hread := decode_encode h rest
  have hback := decode_encode hother []
  rw [List.append_nil, ← hrest, hread] at hback
  exact (Prod.mk.inj (Except.ok.inj hback)).1.symm

end Shortest

end Varint

/-- **What a length prefix is.** Whatever the bytes and however many: a number is read from the first `n` of them
exactly if `n` is ten at most, the `n`-th byte is the first without the continuation bit, and the sum of the groups is a
number of 64 bits. It is cut off exactly if there are fewer than ten bytes and all have the continuation bit, and an
overflow in every other case. The answer rests on these bytes alone, on the first ten where there is no prefix, and no
group loses a bit. -/
theorem decoder_accepts_its_grammar (bytes : Bytes) : Varint.Exact bytes where
  accepted _ _ := Varint.decode_eq_ok_iff
  truncated := Varint.decode_eq_truncated_iff
  overflow := Varint.decode_eq_overflow_iff
  front value n other hread hsame := Varint.decode_eq_ok_iff.2 ((Varint.decode_eq_ok_iff.1 hread).congr hsame)
  front_ten e other hread hsame := by
    rw [← Varint.decode_take, hsame, Varint.decode_take, hread]
  kept value n place b hread hbyte := (Varint.decode_eq_ok_iff.1 hread).kept hbyte
  words := Varint.decode_words bytes

/-- ten groups where the last has a bit too many -/
example : Varint.decode (List.replicate 9 0xFF ++ [0x02]) = .error .overflow := by decide

/-- **An encoding is read back, and is the shortest.** A number below `2 ^ 64` is written in as many bytes as its size
says, one to ten, and nothing behind them is written. It is read back whatever follows. Every other prefix of the same
number is longer, and no encoding begins with another. -/
theorem encoding_is_shortest {value : Nat} (h : value < Word.bound) : Varint.Shortest value where
  size_pos := Varint.size_pos value
  size_le := Varint.size_le_maxSize h
  length_eq := Varint.length_encode h
  written := by
    intro buffer hroom
    have hlength := Varint.length_encode h
    refine ⟨_, Varint.encodeInto_eq h hroom, ?_, List.take_left' hlength, List.drop_left' hlength⟩
    rw [List.length_append, List.length_drop, hlength]
    omega
  read_back := Varint.decode_encode h
  least := by
    intro bytes n hread
    obtain ⟨-, hlength, -, hleast⟩ := Varint.decode_ok hread
    refine ⟨hleast, ?_, ?_⟩
    · rintro rfl
      exact Varint.take_eq_encode h hread
    · intro hsame
      have htaken := congrArg List.length hsame
      rwa [List.length_take, Nat.min_eq_left hlength, Varint.length_encode h] at htaken
  apart _ hother hfront := Varint.eq_of_encode_front h hother hfront

/-- the largest number takes all ten bytes -/
theorem encoding_is_shortest_widest :
    Word.bound - 1 < Word.bound ∧ Varint.encode (Word.bound - 1) = List.replicate 9 0xFF ++ [0x01]
      ∧ Varint.Shortest (Word.bound - 1) := by
  have h : Word.bound - 1 < Word.bound := by decide
  exact ⟨h, by decide, encoding_is_shortest h⟩

end CircularLog
