/-
A record that arrives in pieces. While it does, its bytes lie behind the records and behind a gap for its prefix, where
no reader sees them, and `Ring.Writes` is what is kept. Filling the gap and moving the stop offset makes it the newest
record.

- `Ring.Holds.startWrite`: a record is begun where there is room for it.
- `Ring.Writes.put`, `Ring.Writes.put_too_long`: a piece goes behind the pieces before it, or is refused.
- `Ring.Writes.finish`, `Ring.Writes.finish_short`: the record is appended when it is complete, and only then.
-/
import CircularLog.Proofs.Holding

namespace CircularLog

/-- the writer of a record of this length, when these bytes of it have been put -/
def Writer.behind (r : Ring) (total : Nat) (written : Bytes) : Writer :=
  { offset := r.image.stop, total
    next := (r.image.stop + Varint.size total + written.length) % r.capacity
    remaining := total - written.length }

/-- the ring holds the records, has room for one of length `total`, and `written` lies where its first bytes go -/
structure Ring.Writes (r : Ring) (records : List Bytes) (total : Nat) (written : Bytes) : Prop
    extends r.Holds records where
  fits : weight records + frameLength total < r.capacity
  written_le : written.length ≤ total
  laid : ∃ gap : Bytes, gap.length = Varint.size total
    ∧ framed records ++ gap ++ written <+: r.image.circle.rotate r.image.start

namespace Ring

section Writes

variable {r : Ring} {records : List Bytes} {total : Nat} {written chunk : Bytes}

/-- a record is begun behind the records that are left -/
theorem Holds.startWrite (h : r.Holds records) (hfits : frameLength total < r.capacity) :
    ∃ r₁, Writer.start r total = (r₁, .ok (Writer.behind r₁ total [])) ∧ r₁.capacity = r.capacity
      ∧ r₁.Writes (Queue.room r.capacity (frameLength total) records) total [] := by
  obtain ⟨r₁, hroom, hsame, hholds⟩ := h.makeRoom hfits
  have hweight := Queue.weight_room hfits records
  have hparts := frameLength_eq total
  have hlength := Image.Lies.length_framed hholds.toOpens hholds.lies
  have hstart := start_of_room hroom hholds.toOpens (hsame.capacity ▸ hfits)
  refine ⟨r₁, ?_, hsame.capacity, hholds, hsame.capacity ▸ hweight, Nat.zero_le _, ?_⟩
  · simp only [hstart, Writer.behind, List.length_nil, Nat.add_zero, Nat.sub_zero]
  · obtain ⟨rest, hrest⟩ := hholds.lies.framed_front
    have hcircle := hholds.length_rotate r₁.image.start
    rw [← hrest, List.length_append, hlength, hsame.capacity] at hcircle
    refine ⟨rest.take (Varint.size total), ?_, ?_⟩
    · rw [List.length_take]
      omega
    · rw [← hrest, List.append_nil]
      exact (List.prefix_append_right_inj _).2 (List.take_prefix _ _)

/-! ## Pieces -/

theorem Writes.put_too_long (h : r.Writes records total written) (hlong : total < written.length + chunk.length) :
    (Writer.behind r total written).put r chunk
      = refuse (.chunkTooLong chunk.length (total - written.length) total) := by
  have hwritten := h.written_le
  have hremaining : (Writer.behind r total written).remaining < chunk.length := by
    simp only [Writer.behind]
    omega
  simp only [Writer.put, if_pos hremaining, refuse, bind, Except.bind]
  rfl

/-- the next byte goes behind the gap for the prefix and the bytes that have been put -/
theorem Writes.next_mod (h : r.Writes records total written) :
    (Writer.behind r total written).next % r.capacity
      = (r.image.start + (weight records + Varint.size total + written.length)) % r.capacity := calc
  (Writer.behind r total written).next % r.capacity
      = (r.image.stop + (Varint.size total + written.length)) % r.capacity := by
    rw [Writer.behind, Nat.mod_mod, Nat.add_assoc]
  _ = (r.image.start + weight records + (Varint.size total + written.length)) % r.capacity := by
    rw [← h.lies.stop_eq, Nat.mod_add_mod]
  _ = (r.image.start + (weight records + Varint.size total + written.length)) % r.capacity := by
    simp only [Nat.add_assoc]

/-- a piece goes behind the pieces before it -/
theorem Writes.put (h : r.Writes records total written) (hfits : written.length + chunk.length ≤ total) :
    ∃ image, (Writer.behind r total written).put r chunk
        = .ok ({ r with image }, Writer.behind { r with image } total (written ++ chunk))
      ∧ ({ r with image } : Ring).Writes records total (written ++ chunk) := by
  have hremaining : ¬(Writer.behind r total written).remaining < chunk.length := by
    simp only [Writer.behind]
    omega
  have hparts := frameLength_eq total
  have hroom := h.fits
  obtain ⟨gap, hgap, hlaid⟩ := h.laid
  have hlength : (framed records ++ gap ++ written).length = weight records + Varint.size total + written.length := by
    rw [List.length_append, List.length_append, Image.Lies.length_framed h.toOpens h.lies, hgap]
  obtain ⟨image, himage⟩ : ∃ image, image = Region.scatter r.image
      (Region.stretch r.capacity (Writer.behind r total written).next chunk.length) chunk := ⟨_, rfl⟩
  obtain ⟨hholds, hstart, hstop, hcircle⟩ := h.toHolds.scatter chunk h.next_mod (by omega) (by omega)
  rw [← himage] at hholds hstart hstop hcircle
  have hnext : (Writer.behind r total written).next < r.capacity := Nat.mod_lt _ h.pos
  have hshort : chunk.length ≤ r.capacity := by omega
  have hlocate := h.locate_eq (Writer.behind r total written).next hshort
  have hadvance := h.advance_eq hnext hshort
  have hfront := prefix_lay chunk hlaid hlength.symm
  rw [← hcircle, ← hstart, List.append_assoc] at hfront
  by_cases hempty : chunk.isEmpty
  · obtain rfl : chunk = [] := List.isEmpty_iff.1 hempty
    refine ⟨r.image, ?_, ?_⟩
    · simp only [Writer.put, if_neg hremaining, List.append_nil, bind, Except.bind, pure, Except.pure]
      rfl
    · rw [List.append_nil]
      exact h
  · refine ⟨image, ?_, hholds, h.fits, by rw [List.length_append]; exact hfits, gap, hgap, hfront⟩
    simp only [Writer.put, if_neg hremaining, if_neg hempty, Region.write, hlocate, hadvance, bind, Except.bind, pure,
      Except.pure, ← himage]
    simp only [Writer.behind, hstop, List.length_append, Nat.mod_add_mod, Nat.add_assoc, Nat.sub_sub]

/-! ## The end of the record -/

theorem Writes.finish_short (h : r.Writes records total written) (hshort : written.length ≠ total) :
    (Writer.behind r total written).finish r = refuse (.unfinished (total - written.length) total) := by
  have hremaining : (Writer.behind r total written).remaining ≠ 0 := by
    have := h.written_le
    simp only [Writer.behind]
    omega
  simp only [Writer.finish, if_pos hremaining, refuse, bind, Except.bind]
  rfl

/-- a record whose bytes have all been put is the newest one -/
theorem Writes.finish (h : r.Writes records written.length written) :
    ∃ image, (Writer.behind r written.length written).finish r = .ok { r with image }
      ∧ ({ r with image } : Ring).Holds (records ++ [written]) := by
  have hremaining : ¬written.length - written.length ≠ 0 := by omega
  have hparts := frameLength_eq written.length
  have hroom := h.fits
  obtain ⟨gap, hgap, hlaid⟩ := h.laid
  have hheader : (Varint.encode written.length).length = Varint.size written.length :=
    Varint.length_encode (h.lt_bound (by omega))
  obtain ⟨hholds, hstart₁, hstop₁, hcircle₁⟩ := h.toHolds.scatter (Varint.encode written.length) h.stop_mod le_rfl
    (by omega)
  have hlocate := h.locate_eq r.image.stop (show (Varint.encode written.length).length ≤ r.capacity by omega)
  have hadvance := h.advance_eq h.stop_lt (show frameLength written.length ≤ r.capacity by omega)
  have hmod : Word.mod ((r.image.stop + frameLength written.length) % r.capacity) r.capacity
      = .ok ((r.image.stop + frameLength written.length) % r.capacity) := by
    rw [Word.mod_eq_ok (Nat.ne_of_gt h.pos), Nat.mod_mod]
  -- the prefix fills the gap in front of the bytes
  have hfront := prefix_lay_gap hlaid
    (Image.Lies.length_framed h.toOpens h.lies).symm (hheader.trans hgap.symm)
  rw [← hcircle₁, ← hstart₁, List.append_assoc] at hfront
  have hdone := hholds.setStop h.fits hfront
  simp only [hstop₁] at hdone
  refine ⟨_, ?_, hdone⟩
  simp only [Writer.finish, if_neg hremaining, Writer.behind, Region.write, hlocate, hadvance, hmod, bind, Except.bind,
    pure, Except.pure]

end Writes

end Ring

end CircularLog
