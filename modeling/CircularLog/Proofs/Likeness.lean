/-
Two rings that differ in bytes of their data and in nothing else. Where the same frame is next and the same records are
dropped to make room, whatever is asked does the same to both of them: only bytes that are read or written differ, and
their number does not. The same frames are found if the rings hold records of the same lengths, whatever the bytes of
the records say.

- `Image.Alike`, `Ring.Alike`: the same but for the bytes; `Concurs`: outcomes that are the same but for these.
- `Ring.Matches`: the same frame is next, and the same room is made.
- `Ring.Matches.acts`: whatever is asked.
- `Ring.Holds.makeRoom_alike`, `Ring.Holds.matches_alike`: rings that hold records of the same lengths.
-/
import CircularLog.Proofs.SideBySide

namespace CircularLog

/-- two values that the relation holds of, or the same reason that there is none -/
inductive Concurs {ε α β : Type} (R : α → β → Prop) : Except ε α → Except ε β → Prop
  | ok {a : α} {b : β} : R a b → Concurs R (.ok a) (.ok b)
  | error (e : ε) : Concurs R (.error e) (.error e)

namespace Concurs

variable {ε α β γ δ : Type} {R : α → β → Prop} {R' : γ → δ → Prop}

theorem map {x : Except ε α} {y : Except ε β} {f : α → γ} {g : β → δ} (h : Concurs R x y)
    (hvalue : ∀ a b, R a b → R' (f a) (g b)) : Concurs R' (x.map f) (y.map g) := by
  cases h with
  | ok hab => exact .ok (hvalue _ _ hab)
  | error e => exact .error e

theorem reply {x : Outcome α} {y : Outcome β} (h : Concurs R x y) (path : Path) :
    Concurs R (x.reply path) (y.reply path) := by
  cases h with
  | ok hab => exact .ok hab
  | error stop => exact .error _

end Concurs

/-! ## Bytes -/

section Bytes

variable {ρ : UInt8 → UInt8 → Prop} {bytes other data data' : Bytes}

/-- each byte is related to itself -/
theorem forall₂_self (hρ : ∀ b, ρ b b) (bytes : Bytes) : List.Forall₂ ρ bytes bytes :=
  List.forall₂_same.2 fun b _ => hρ b

theorem forall₂_rotate (h : List.Forall₂ ρ bytes other) (place : Nat) :
    List.Forall₂ ρ (bytes.rotate place) (other.rotate place) := by
  rw [List.rotate_eq_drop_append_take_mod, List.rotate_eq_drop_append_take_mod, ← h.length_eq]
  exact List.rel_append (List.forall₂_drop _ h) (List.forall₂_take _ h)

theorem forall₂_of_rotate (place : Nat) (h : List.Forall₂ ρ (bytes.rotate place) (other.rotate place)) :
    List.Forall₂ ρ bytes other := by
  have hlength := h.length_eq
  rw [List.length_rotate, List.length_rotate] at hlength
  by_cases hempty : bytes = []
  · obtain rfl : other = [] := List.length_eq_zero_iff.1 (by rw [← hlength, hempty]; rfl)
    rw [hempty]
    exact .nil
  · -- on to the next multiple of the length
    have hpos : 0 < bytes.length := List.length_pos_iff.2 hempty
    have hturn : place + (bytes.length * place - place) = bytes.length * place :=
      Nat.add_sub_cancel' (Nat.le_mul_of_pos_left place hpos)
    have hback := forall₂_rotate h (bytes.length * place - place)
    rw [List.rotate_rotate, List.rotate_rotate, hturn] at hback
    conv at hback => arg 3; rw [hlength]
    rwa [List.rotate_length_mul, List.rotate_length_mul] at hback

theorem forall₂_lay (h : List.Forall₂ ρ bytes other) (hdata : List.Forall₂ ρ data data') (position : Nat) :
    List.Forall₂ ρ (lay bytes position data) (lay other position data') := by
  rw [lay, lay, ← hdata.length_eq]
  exact List.rel_append (List.rel_append (List.forall₂_take _ h) hdata) (List.forall₂_drop _ h)

end Bytes

/-! ## Files -/

/-- the same control block, and data that are related byte by byte -/
structure Image.Alike (ρ : UInt8 → UInt8 → Prop) (image other : Image) : Prop where
  head : other.head = image.head
  circle : List.Forall₂ ρ image.circle other.circle

namespace Image.Alike

section Alike

variable {ρ : UInt8 → UInt8 → Prop} {image other : Image} {capacity place : Nat} {data data' : Bytes}

theorem refl (hρ : ∀ b, ρ b b) (image : Image) : image.Alike ρ image := ⟨rfl, forall₂_self hρ _⟩

theorem start_eq (h : image.Alike ρ other) : other.start = image.start := start_congr h.head

theorem stop_eq (h : image.Alike ρ other) : other.stop = image.stop := stop_congr h.head

theorem flags_eq (h : image.Alike ρ other) : other.flags = image.flags := flags_congr h.head

theorem opens (h : image.Alike ρ other) (hopens : image.Opens capacity) : other.Opens capacity := by
  have hblock := hopens.block_le
  have hhead : (other.toBytes.take ControlBlock.size).length = image.head.length := congrArg List.length h.head
  have hcircle := h.circle.length_eq
  rw [length_head hblock, List.length_take, length_toBytes] at hhead
  rw [length_circle, length_circle] at hcircle
  exact hopens.of_head (by omega) h.head

theorem setStart (h : image.Alike ρ other) (hopens : image.Opens capacity) (hplace : place < capacity) :
    (image.setStart place).Alike ρ (other.setStart place) where
  head := by
    have hother := h.opens hopens
    rw [head_eq (hother.setStart hplace).block_le, head_eq (hopens.setStart hplace).block_le,
      front_setStart hother.block_le, front_setStart hopens.block_le,
      start_setStart hother.block_le (hother.lt_bound hplace), start_setStart hopens.block_le (hopens.lt_bound hplace),
      stop_setStart hother.block_le, stop_setStart hopens.block_le, front_congr h.head, h.stop_eq]
  circle := by
    rw [circle_setStart hopens.block_le, circle_setStart (h.opens hopens).block_le]
    exact h.circle

theorem setStop (h : image.Alike ρ other) (hopens : image.Opens capacity) (hplace : place < capacity) :
    (image.setStop place).Alike ρ (other.setStop place) where
  head := by
    have hother := h.opens hopens
    rw [head_eq (hother.setStop hplace).block_le, head_eq (hopens.setStop hplace).block_le,
      front_setStop hother.block_le, front_setStop hopens.block_le,
      stop_setStop hother.block_le (hother.lt_bound hplace), stop_setStop hopens.block_le (hopens.lt_bound hplace),
      start_setStop hother.block_le, start_setStop hopens.block_le, front_congr h.head, h.start_eq]
  circle := by
    rw [circle_setStop hopens.block_le, circle_setStop (h.opens hopens).block_le]
    exact h.circle

/-- bytes that are related, laid at the same place -/
theorem scatter (h : image.Alike ρ other) (hopens : image.Opens capacity) (hdata : List.Forall₂ ρ data data')
    (hlength : data.length ≤ capacity) (place : Nat) :
    (Region.scatter image (Region.stretch capacity place data.length) data).Alike ρ
      (Region.scatter other (Region.stretch capacity place data.length) data') := by
  have hother := h.opens hopens
  have hsame := hdata.length_eq
  obtain ⟨-, hhead, hcircle⟩ := Region.scatter_stretch place hopens.size hopens.pos hlength
  obtain ⟨-, hhead', hcircle'⟩ := Region.scatter_stretch place hother.size hother.pos (hsame ▸ hlength)
  rw [← hsame] at hhead' hcircle'
  refine ⟨by rw [hhead, hhead', h.head], forall₂_of_rotate place ?_⟩
  rw [hcircle, hcircle']
  exact forall₂_lay (forall₂_rotate h.circle place) hdata 0

/-- the same length is written in front of both records -/
theorem scatter_encode (h : image.Alike ρ other) (hρ : ∀ b, ρ b b) (hopens : image.Opens capacity) {total : Nat}
    (hfits : frameLength total < capacity) (place : Nat) :
    (Region.scatter image (Region.stretch capacity place (Varint.size total)) (Varint.encode total)).Opens capacity
      ∧ (Region.scatter image (Region.stretch capacity place (Varint.size total)) (Varint.encode total)).Alike ρ
        (Region.scatter other (Region.stretch capacity place (Varint.size total)) (Varint.encode total)) := by
  have hparts := frameLength_eq total
  have hheader : (Varint.encode total).length = Varint.size total := Varint.length_encode (hopens.lt_bound (by omega))
  have hprefix : (Varint.encode total).length ≤ capacity := by omega
  rw [← hheader]
  exact ⟨hopens.scatter place hprefix, h.scatter hopens (forall₂_self hρ _) hprefix place⟩

end Alike

end Image.Alike

/-! ## Rings -/

/-- the same but for the bytes of the data -/
structure Ring.Alike (ρ : UInt8 → UInt8 → Prop) (r r' : Ring) : Prop where
  capacity : r'.capacity = r.capacity
  cursor : r'.cursor = r.cursor
  image : r.image.Alike ρ r'.image

namespace Ring.Alike

section Alike

variable {ρ : UInt8 → UInt8 → Prop} {r r' : Ring}

theorem opens (h : r.Alike ρ r') (hopens : r.image.Opens r.capacity) : r'.image.Opens r'.capacity := by
  rw [h.capacity]
  exact h.image.opens hopens

theorem sound (h : r.Alike ρ r') (hsound : r.Sound) : r'.Sound where
  toOpens := h.opens hsound.toOpens
  cursor_lt := by
    rw [h.cursor, h.capacity]
    exact hsound.cursor_lt

theorem load_eq (h : r.Alike ρ r') : r'.load = r.load := by
  rw [load, load, h.capacity, h.image.start_eq, h.image.stop_eq]

/-- the cursor of both is put here -/
theorem seek (h : r.Alike ρ r') (cursor : Nat) : ({ r with cursor } : Ring).Alike ρ { r' with cursor } :=
  ⟨h.capacity, rfl, h.image⟩

theorem rewind (h : r.Alike ρ r') : r.rewind.Alike ρ r'.rewind := by
  rw [Ring.rewind, Ring.rewind, h.image.start_eq]
  exact h.seek _

theorem pass (h : r.Alike ρ r') (frame : Frame) : (r.pass frame).Alike ρ (r'.pass frame) := by
  have hcursor : (r'.cursor + frame.length) % r'.capacity
      = (r.cursor + frame.length) % r.capacity := by rw [h.cursor, h.capacity]
  rw [Ring.pass, Ring.pass, hcursor]
  exact h.seek _

theorem drop (h : r.Alike ρ r') (hsound : r.Sound) (frame : Frame) : (r.drop frame).Alike ρ (r'.drop frame) := by
  have himage := h.image.setStart hsound.toOpens (Nat.mod_lt (r.image.start + frame.length) hsound.pos)
  simp only [Ring.drop, h.image.start_eq, h.capacity, h.cursor]
  exact ⟨rfl, rfl, himage⟩

/-- the figures of a ring are in its control block -/
theorem usage_eq (h : r.Alike ρ r') : r'.usage = r.usage := by
  simp only [usage, used, h.capacity, h.image.start_eq, h.image.stop_eq, h.image.flags_eq]

theorem after {α β : Type} {R : α → β → Prop} {result : Outcome (Ring × α)} {result' : Outcome (Ring × β)}
    (h : r.Alike ρ r')
    (hresult : Concurs (fun found found' => found.1.Alike ρ found'.1 ∧ R found.2 found'.2) result result') :
    (r.after result).1.Alike ρ (r'.after result').1 ∧ Concurs R (r.after result).2 (r'.after result').2 := by
  cases hresult with
  | ok hfound => exact ⟨hfound.1, .ok hfound.2⟩
  | error stop => exact ⟨h, .error stop⟩

end Alike

end Ring.Alike

/-- the rings are alike, the same frame is next, and the same is dropped to make room -/
structure Ring.Matches (ρ : UInt8 → UInt8 → Prop) (r r' : Ring) : Prop extends r.Alike ρ r' where
  frame : r.cursor ≠ r.image.stop → r'.frameAt r.cursor r.image.stop = r.frameAt r.cursor r.image.stop
  room : ∀ total, (r.makeRoom total).1.Alike ρ (r'.makeRoom total).1 ∧ (r'.makeRoom total).2 = (r.makeRoom total).2

/-- what is read differs by bytes, and nothing else does -/
inductive Session.Answer.Alike (ρ : UInt8 → UInt8 → Prop) : Answer → Answer → Prop
  | done : Alike ρ .done .done
  | record {payload other : Option Bytes} : Option.Rel (List.Forall₂ ρ) payload other →
      Alike ρ (.record payload) (.record other)
  | filled {buffer other : Bytes} (length : Option Nat) : List.Forall₂ ρ buffer other →
      Alike ρ (.filled buffer length) (.filled other length)
  | started (found : Bool) : Alike ρ (.started found) (.started found)
  | piece {bytes other : Bytes} : List.Forall₂ ρ bytes other → Alike ρ (.piece bytes) (.piece other)
  | exact {bytes other : Option Bytes} : Option.Rel (List.Forall₂ ρ) bytes other → Alike ρ (.exact bytes) (.exact other)

/-- the pairing of a session with one on a file that differs in bytes of its data -/
def Session.likeness (ρ : UInt8 → UInt8 → Prop) (capacity : Nat) : Session.Pairing capacity where
  place := id
  piece := id
  alike := Image.Alike ρ
  heard := Concurs (Session.Answer.Alike ρ)
  opens h hopens := ⟨h.opens hopens, h.start_eq⟩
  done := .ok .done
  unknown := .error _
  reader := .error _

/-- the handles and the records in pieces are the same -/
theorem Session.recast_likeness (ρ : UInt8 → UInt8 → Prop) (capacity node : Nat) (image : Image) (s : Session) :
    (Session.likeness ρ capacity).recast node image s = { s with files := s.files.setImage node image } := by
  have hhandles : s.handles.map (fun entry => (entry.1, entry.2.moved id)) = s.handles := List.map_id s.handles
  have hloans : s.loans.map (Loan.moved id id) = s.loans := List.map_id s.loans
  simp only [Session.Pairing.recast, Session.likeness, hhandles, hloans]

namespace Ring.Matches

open Session

section Matches

variable {ρ : UInt8 → UInt8 → Prop} {r r' : Ring} {writer : Writer} {reader : Reader} {payload other chunk : Bytes}
  {was : Option Stream} {request request' : Session.Request}

/-! ### Reading -/

/-- the bytes behind a place -/
theorem stretch (h : r.Alike ρ r') (place length : Nat) :
    List.Forall₂ ρ ((r.image.circle.rotate place).take length) ((r'.image.circle.rotate place).take length) :=
  List.forall₂_take _ (forall₂_rotate h.image.circle place)

theorem record (h : r.Matches ρ r') (hsound : r.Sound) :
    Concurs (fun found found' => found.1.Alike ρ found'.1 ∧ Option.Rel (List.Forall₂ ρ) found.2 found'.2)
      r.record r'.record := by
  rw [record_eq hsound, record_eq (h.sound hsound), h.cursor, h.image.stop_eq]
  by_cases hend : r.cursor = r.image.stop
  · rw [if_pos hend, if_pos hend]
    exact .ok ⟨h.toAlike, .none⟩
  · rw [if_neg hend, if_neg hend, h.frame hend]
    cases r.frameAt r.cursor r.image.stop with
    | error stop => exact .error stop
    | ok frame => exact .ok ⟨h.pass frame, .some (stretch h.toAlike _ _)⟩

theorem read (h : r.Matches ρ r') (hρ : ∀ b, ρ b b) (hsound : r.Sound) (buffer : Bytes) :
    List.Forall₂ ρ (r.read buffer).1 (r'.read buffer).1
      ∧ Concurs (fun found found' => found.1.Alike ρ found'.1 ∧ found'.2 = found.2)
        (r.read buffer).2 (r'.read buffer).2 := by
  rw [read_eq hsound, read_eq (h.sound hsound), h.cursor, h.image.stop_eq]
  by_cases hend : r.cursor = r.image.stop
  · rw [if_pos hend, if_pos hend]
    exact ⟨forall₂_self hρ buffer, .ok ⟨h.toAlike, rfl⟩⟩
  · rw [if_neg hend, if_neg hend, h.frame hend]
    cases r.frameAt r.cursor r.image.stop with
    | error stop => exact ⟨forall₂_self hρ buffer, .error stop⟩
    | ok frame =>
      by_cases hsmall : buffer.length < frame.payload
      · simp only [if_pos hsmall]
        exact ⟨forall₂_self hρ buffer, .error _⟩
      · have hbytes := stretch h.toAlike (r.cursor + frame.header) frame.payload
        simp only [if_neg hsmall, fill, hbytes.length_eq]
        exact ⟨List.rel_append hbytes (forall₂_self hρ _), .ok ⟨h.pass frame, rfl⟩⟩

theorem startRead (h : r.Matches ρ r') : Reader.start r' = Reader.start r := by
  rw [start_eq, start_eq, h.cursor, h.image.stop_eq]
  by_cases hend : r.cursor = r.image.stop
  · rw [if_pos hend, if_pos hend]
  · rw [if_neg hend, if_neg hend, h.frame hend]

/-- the next record is as long -/
theorem nextSize (h : r.Matches ρ r') : r'.nextSize = r.nextSize := by
  simp only [Ring.nextSize, next, h.cursor, h.image.stop_eq]
  by_cases hend : r.cursor = r.image.stop
  · simp only [if_pos hend]
  · simp only [if_neg hend, h.frame hend]

theorem take (h : r.Alike ρ r') (hsound : r.Sound) (hreader : reader.InRange r.capacity) (length : Nat) :
    List.Forall₂ ρ (reader.take r length).1 (reader.take r' length).1
      ∧ (reader.take r' length).2 = (reader.take r length).2 := by
  rw [Reader.take_eq hsound.toOpens hreader, Reader.take_eq (h.opens hsound.toOpens) (h.capacity.symm ▸ hreader)]
  exact ⟨stretch h _ _, rfl⟩

theorem takeExact (h : r.Alike ρ r') (hsound : r.Sound) (hreader : reader.InRange r.capacity) (length : Nat) :
    (reader.takeExact r' length).1 = (reader.takeExact r length).1
      ∧ Concurs (Option.Rel (List.Forall₂ ρ)) (reader.takeExact r length).2 (reader.takeExact r' length).2 := by
  rw [Reader.takeExact_eq hsound.toOpens hreader,
    Reader.takeExact_eq (h.opens hsound.toOpens) (h.capacity.symm ▸ hreader)]
  by_cases hshort : reader.remaining < length
  · simp only [if_pos hshort]
    exact ⟨trivial, .ok .none⟩
  · simp only [if_neg hshort]
    exact ⟨trivial, .ok (.some (stretch h _ _))⟩

theorem takeAll (h : r.Alike ρ r') (hsound : r.Sound) (hreader : reader.InRange r.capacity) :
    (reader.takeAll r').1 = (reader.takeAll r).1
      ∧ Concurs (List.Forall₂ ρ) (reader.takeAll r).2 (reader.takeAll r').2 := by
  rw [Reader.takeAll_eq hsound.toOpens hreader, Reader.takeAll_eq (h.opens hsound.toOpens) (h.capacity.symm ▸ hreader)]
  exact ⟨rfl, .ok (stretch h _ _)⟩

theorem finishRead (h : r.Alike ρ r') (hsound : r.Sound) (hreader : reader.InRange r.capacity) :
    Concurs (Ring.Alike ρ) (reader.finish r) (reader.finish r') := by
  have hcursor : (reader.frame.offset + reader.frame.length) % r'.capacity
      = (reader.frame.offset + reader.frame.length) % r.capacity := by
    rw [h.capacity]
  rw [Reader.finish_eq hsound.toOpens hreader, Reader.finish_eq (h.opens hsound.toOpens) (h.capacity.symm ▸ hreader),
    hcursor]
  exact .ok (h.seek _)

/-! ### Writing -/

theorem placed (h : r.Alike ρ r') (hρ : ∀ b, ρ b b) (hopens : r.image.Opens r.capacity)
    (hfits : frameLength payload.length < r.capacity) (hpayload : List.Forall₂ ρ payload other) :
    (r.placed payload).Alike ρ (r'.placed other) := by
  have hparts := frameLength_eq payload.length
  obtain ⟨hopens₁, hprefixed⟩ := h.image.scatter_encode hρ hopens hfits r.image.stop
  have hlaid := hprefixed.scatter hopens₁ hpayload (by omega) (r.image.stop + Varint.size payload.length)
  have hopens₂ :=
    hopens₁.scatter (r.image.stop + Varint.size payload.length) (show payload.length ≤ r.capacity by omega)
  have hplaced := hlaid.setStop hopens₂ (Nat.mod_lt (r.image.stop + frameLength payload.length) hopens.pos)
  simp only [Ring.placed, ← hpayload.length_eq, h.image.stop_eq, h.capacity]
  exact hplaced

/-- room is made in both, or it is refused in both for the same reason -/
theorem makeRoom (h : r.Matches ρ r') (total : Nat) :
    (∃ r₁ r₂ stop, r.makeRoom total = (r₁, .error stop) ∧ r'.makeRoom total = (r₂, .error stop) ∧ r₁.Alike ρ r₂)
      ∨ ∃ r₁ r₂, r.makeRoom total = (r₁, .ok ()) ∧ r'.makeRoom total = (r₂, .ok ()) ∧ r₁.Alike ρ r₂ := by
  have hboth := h.room total
  generalize r.makeRoom total = x at hboth ⊢
  generalize r'.makeRoom total = y at hboth ⊢
  obtain ⟨r₁, _⟩ := x
  obtain ⟨r₂, result⟩ := y
  obtain ⟨halike, rfl⟩ := hboth
  cases result with
  | error stop => exact .inl ⟨r₁, r₂, stop, rfl, rfl, halike⟩
  | ok done => exact .inr ⟨r₁, r₂, rfl, rfl, halike⟩

theorem append (h : r.Matches ρ r') (hρ : ∀ b, ρ b b) (hsound : r.Sound) (hpayload : List.Forall₂ ρ payload other) :
    (r.append payload).1.Alike ρ (r'.append other).1 ∧ (r'.append other).2 = (r.append payload).2 := by
  rw [append_eq hsound, append_eq (h.sound hsound), ← hpayload.length_eq]
  obtain ⟨r₁, r₂, stop, hroom, hroom', halike⟩ | ⟨r₁, r₂, hroom, hroom', halike⟩ := h.makeRoom payload.length
  · rw [hroom, hroom']
    exact ⟨halike, rfl⟩
  · have hsame := same_makeRoom hsound payload.length
    rw [hroom] at hsame
    rw [hroom, hroom']
    have hplaced := placed halike hρ hsame.sound.toOpens (hsame.capacity ▸ fits_of_makeRoom hroom) hpayload
    exact ⟨⟨halike.capacity, halike.cursor, hplaced⟩, rfl⟩

theorem startWrite (h : r.Matches ρ r') (hsound : r.Sound) (total : Nat) :
    (Writer.start r total).1.Alike ρ (Writer.start r' total).1
      ∧ (Writer.start r' total).2 = (Writer.start r total).2 := by
  rw [Writer.start_eq hsound, Writer.start_eq (h.sound hsound)]
  obtain ⟨r₁, r₂, stop, hroom, hroom', halike⟩ | ⟨r₁, r₂, hroom, hroom', halike⟩ := h.makeRoom total
  · rw [hroom, hroom']
    exact ⟨halike, rfl⟩
  · rw [hroom, hroom']
    simp only [Writer.behind, halike.capacity, halike.image.stop_eq]
    exact ⟨halike, trivial⟩

theorem put (h : r.Alike ρ r') (hsound : r.Sound) (hwriter : writer.InRange r.capacity)
    (hchunk : List.Forall₂ ρ chunk other) :
    Concurs (fun found found' => found.1.Alike ρ found'.1 ∧ found'.2 = found.2)
      (writer.put r chunk) (writer.put r' other) := by
  rw [Writer.put_eq hsound.toOpens hwriter, Writer.put_eq (h.opens hsound.toOpens) (h.capacity.symm ▸ hwriter),
    ← hchunk.length_eq]
  by_cases hlong : writer.remaining < chunk.length
  · rw [if_pos hlong, if_pos hlong]
    exact .error _
  · have hparts := frameLength_eq writer.total
    have hfits := hwriter.fits
    have hremaining := hwriter.remaining_le
    have hlaid := h.image.scatter hsound.toOpens hchunk (by omega) writer.next
    rw [if_neg hlong, if_neg hlong, h.capacity]
    exact .ok ⟨⟨rfl, h.cursor, hlaid⟩, rfl⟩

theorem finishWrite (h : r.Alike ρ r') (hρ : ∀ b, ρ b b) (hsound : r.Sound) (hwriter : writer.InRange r.capacity) :
    Concurs (Ring.Alike ρ) (writer.finish r) (writer.finish r') := by
  rw [Writer.finish_eq hsound.toOpens hwriter, Writer.finish_eq (h.opens hsound.toOpens) (h.capacity.symm ▸ hwriter)]
  by_cases hmissing : writer.remaining ≠ 0
  · rw [if_pos hmissing, if_pos hmissing]
    exact .error _
  · obtain ⟨hopens, hlaid⟩ := h.image.scatter_encode hρ hsound.toOpens hwriter.fits writer.offset
    have hplaced := hlaid.setStop hopens (Nat.mod_lt (writer.offset + frameLength writer.total) hsound.pos)
    rw [if_neg hmissing, if_neg hmissing, h.capacity]
    exact .ok ⟨rfl, h.cursor, hplaced⟩

/-! ### Whatever is asked -/

theorem acted {capacity : Nat} {next next' : Ring} {now : Option Stream} {result result' : Outcome Answer} {path : Path}
    (h : next.Alike ρ next') (hresult : Concurs (Answer.Alike ρ) result result') :
    (likeness ρ capacity).Acts path (some (next, now, result)) (some (next', now, result')) := by
  have hacts : (likeness ρ capacity).Acts path (some (next, now, result)) (some (next', now.map id, result')) :=
    .some h.cursor h.image (hresult.reply path)
  rwa [Option.map_id] at hacts

/-- what is done, or refused, in the same way -/
theorem concurs {α : Type} {x y : Outcome α} (h : y = x) {value : α → Answer}
    (hvalue : ∀ a, (value a).Alike ρ (value a)) :
    Concurs (Answer.Alike ρ) (x.map value) (y.map value) := by
  subst h
  cases y with
  | ok a => exact .ok (hvalue a)
  | error stop => exact .error stop

/-- what a request does to a free handle -/
theorem acts_free (h : r.Matches ρ r') (hρ : ∀ b, ρ b b) (hsound : r.Sound) (hlike : request.Like ρ request')
    {capacity : Nat} (path : Path) : (likeness ρ capacity).Acts path (request.act r none) (request'.act r' none) := by
  have hdone : ∀ a : Unit, ((fun _ => .done) a : Answer).Alike ρ .done := fun _ => .done
  cases hlike with
  | append hpayload =>
    obtain ⟨halike, hresult⟩ := h.append hρ hsound hpayload
    exact acted halike (concurs hresult hdone)
  | put => exact .none
  | same =>
    cases request with
    | rewind name => exact acted h.rewind (.ok .done)
    | record name =>
      obtain ⟨halike, hresult⟩ := h.toAlike.after (h.record hsound)
      exact acted halike (hresult.map fun _ _ => .record)
    | read name buffer =>
      obtain ⟨hbuffer, hread⟩ := h.read hρ hsound buffer
      obtain ⟨halike, hresult⟩ := h.toAlike.after (R := fun length other => other = length) hread
      refine acted halike (hresult.map ?_)
      rintro _ length rfl
      exact .filled length hbuffer
    | append name payload =>
      obtain ⟨halike, hresult⟩ := h.append hρ hsound (forall₂_self hρ _)
      exact acted halike (concurs hresult hdone)
    | startWrite name total =>
      have hboth := h.startWrite hsound total
      rw [Session.Request.act, Session.Request.act]
      rcases hstart : Writer.start r total with ⟨next, result⟩
      rcases hstart' : Writer.start r' total with ⟨next', other⟩
      rw [hstart, hstart'] at hboth
      obtain ⟨halike, rfl⟩ : next.Alike ρ next' ∧ other = result := hboth
      cases other with
      | error stop => exact acted halike (.error stop)
      | ok writer => exact acted halike (.ok .done)
    | startRead name =>
      rw [Session.Request.act, Session.Request.act, h.startRead]
      rcases Reader.start r with stop | _ | reader
      · exact acted h.toAlike (.error stop)
      · exact acted h.toAlike (.ok (.started false))
      · exact acted h.toAlike (.ok (.started true))
    | _ => exact .none

/-- what it does to a record that is being written -/
theorem acts_writing (h : r.Alike ρ r') (hρ : ∀ b, ρ b b) (hsound : r.Sound) (hwriter : writer.InRange r.capacity)
    (hlike : request.Like ρ request') {capacity : Nat} (path : Path) :
    (likeness ρ capacity).Acts path (request.act r (some (.writing writer)))
      (request'.act r' (some (.writing writer))) := by
  have hput : ∀ {chunk chunk' : Bytes}, List.Forall₂ ρ chunk chunk' → (likeness ρ capacity).Acts path
      (Session.Request.act r (.put chunk) (some (.writing writer)))
      (Session.Request.act r' (.put chunk') (some (.writing writer))) := by
    intro chunk chunk' hchunk
    have hboth := put h hsound hwriter hchunk
    rw [Session.Request.act, Session.Request.act]
    generalize writer.put r chunk = x at hboth
    generalize writer.put r' chunk' = y at hboth
    cases hboth with
    | error stop => exact acted h (.error stop)
    | @ok a b hab =>
      obtain ⟨next, written⟩ := a
      obtain ⟨next', _⟩ := b
      obtain ⟨halike, rfl⟩ := hab
      exact acted halike (.ok .done)
  cases hlike with
  | append => exact .none
  | put hchunk => exact hput hchunk
  | same =>
    cases request with
    | put chunk => exact hput (forall₂_self hρ _)
    | finish =>
      have hboth := finishWrite h hρ hsound hwriter
      rw [Session.Request.act, Session.Request.act, Session.Request.conclude, Session.Request.conclude]
      generalize writer.finish r = x at hboth
      generalize writer.finish r' = y at hboth
      cases hboth with
      | error stop => exact acted h (.error stop)
      | ok halike => exact acted halike (.ok .done)
    | leave => exact acted h (.ok .done)
    | _ => exact .none

/-- and to one that is being read -/
theorem acts_reading (h : r.Alike ρ r') (hsound : r.Sound) (hreader : reader.InRange r.capacity)
    (hlike : request.Like ρ request') {capacity : Nat} (path : Path) :
    (likeness ρ capacity).Acts path (request.act r (some (.reading reader)))
      (request'.act r' (some (.reading reader))) := by
  cases hlike with
  | append => exact .none
  | put => exact .none
  | same =>
    cases request with
    | take length =>
      have hboth := take h hsound hreader length
      rw [Session.Request.act, Session.Request.act]
      rcases htake : reader.take r length with ⟨delivered, result⟩
      rcases htake' : reader.take r' length with ⟨delivered', other⟩
      rw [htake, htake'] at hboth
      obtain ⟨hbytes, rfl⟩ : List.Forall₂ ρ delivered delivered' ∧ other = result := hboth
      cases other with
      | error stop => exact acted h (.error stop)
      | ok taken => exact acted h (.ok (.piece hbytes))
    | takeExact length =>
      obtain ⟨hnext, hresult⟩ := takeExact h hsound hreader length
      rw [Session.Request.act, Session.Request.act, hnext]
      exact acted h (hresult.map fun _ _ => .exact)
    | takeAll =>
      obtain ⟨hnext, hresult⟩ := takeAll h hsound hreader
      rw [Session.Request.act, Session.Request.act, hnext]
      exact acted h (hresult.map fun _ _ => .piece)
    | finish =>
      have hboth := finishRead h hsound hreader
      rw [Session.Request.act, Session.Request.act, Session.Request.conclude, Session.Request.conclude]
      generalize reader.finish r = x at hboth
      generalize reader.finish r' = y at hboth
      cases hboth with
      | error stop => exact acted h (.error stop)
      | ok halike => exact acted halike (.ok .done)
    | leave => exact acted h (.ok .done)
    | _ => exact .none

/-- **Whatever is asked.** The same is done to both rings, but for the bytes. -/
theorem acts (h : r.Matches ρ r') (hρ : ∀ b, ρ b b) (hsound : r.Sound)
    (hwas : ∀ stream ∈ was, stream.InRange r.capacity)
    (hlike : request.Like ρ request') {capacity : Nat} (path : Path) :
    (likeness ρ capacity).Acts path (request.act r was) (request'.act r' was) := by
  rcases was with _ | writer | reader
  · exact h.acts_free hρ hsound hlike path
  · exact acts_writing h.toAlike hρ hsound (hwas _ rfl) hlike path
  · exact acts_reading h.toAlike hsound (hwas _ rfl) hlike path

end Matches

end Ring.Matches

/-! ## Records of the same lengths -/

section Lengths

variable {ρ : UInt8 → UInt8 → Prop} {records records' rest rest' : List Bytes}

/-- the frames of records of the same lengths are as long -/
theorem weight_alike (h : List.Forall₂ (List.Forall₂ ρ) records records') : weight records' = weight records := by
  induction h with
  | nil => rfl
  | cons hpayload hrecords ih => rw [weight_cons, weight_cons, ih, hpayload.length_eq]

variable {r r' : Ring}

namespace Ring.Holds

/-- the same goes -/
theorem evict_alike {payload payload' : Bytes} (h : r.Holds (payload :: records)) (h' : r'.Holds (payload' :: records'))
    (hlength : payload'.length = payload.length) (halike : r.Alike ρ r') :
    ∃ r₁ r₂, r.evict = (r₁, .ok ()) ∧ r'.evict = (r₂, .ok ()) ∧ r₁.Holds records ∧ r₂.Holds records'
      ∧ r₁.capacity = r.capacity
      ∧ r₁.Alike ρ r₂ := by
  obtain ⟨r₁, hevict, hsame, hholds⟩ := h.evict
  obtain ⟨r₂, hevict', hsame', hholds'⟩ := h'.evict
  refine ⟨r₁, r₂, hevict, hevict', hholds, hholds', hsame.capacity, ?_⟩
  have hne : r.image.start ≠ r.image.stop := by
    intro heq
    exact List.cons_ne_nil _ _ ((h.lies.eq_stop_iff h.start_lt h.stop_lt).1 heq)
  have hne' : r'.image.start ≠ r'.image.stop := by rwa [halike.image.start_eq, halike.image.stop_eq]
  rw [evict_eq h.toSound, if_neg hne, Image.Lies.frameAt h.toOpens h.start_lt h.lies] at hevict
  rw [evict_eq h'.toSound, if_neg hne', Image.Lies.frameAt h'.toOpens h'.start_lt h'.lies, hlength,
    halike.image.start_eq] at hevict'
  obtain rfl := (Prod.mk.inj hevict).1
  obtain rfl := (Prod.mk.inj hevict').1
  exact halike.drop h.toSound _

theorem reserveWithin_alike (h : r.Holds records) (h' : r'.Holds records')
    (hrecords : List.Forall₂ (List.Forall₂ ρ) records records')
    (halike : r.Alike ρ r') {length : Nat} (hlength : length < r.capacity) (fuel : Nat) :
    (Ring.reserveWithin fuel r length).1.Alike ρ (Ring.reserveWithin fuel r' length).1
      ∧ (Ring.reserveWithin fuel r' length).2 = (Ring.reserveWithin fuel r length).2 := by
  -- over the records, of which both rings drop the oldest as long as they are crowded
  induction hrecords generalizing r r' fuel with
  | nil =>
    cases fuel with
    | zero => exact ⟨halike, rfl⟩
    | succ fuel =>
      have hroom : ∀ some : Ring, some.Holds [] → length < some.capacity → ¬some.Crowded length some.image.start := by
        intro some hsome hshort
        rw [hsome.crowded_iff]
        simpa using hshort
      rw [reserveWithin_of_room h.toSound fuel (hroom r h hlength),
        reserveWithin_of_room h'.toSound fuel (hroom r' h' (halike.capacity.symm ▸ hlength))]
      exact ⟨halike, rfl⟩
  | @cons payload payload' records records' hpayload hrecords ih =>
    cases fuel with
    | zero => exact ⟨halike, rfl⟩
    | succ fuel =>
      have hcrowded : r'.Crowded length r'.image.start ↔ r.Crowded length r.image.start := by
        rw [crowded_start, crowded_start, halike.load_eq, halike.capacity]
      by_cases hfull : r.Crowded length r.image.start
      · obtain ⟨r₁, r₂, hevict, hevict', hholds, hholds', hcapacity, hnext⟩ :=
          h.evict_alike h' hpayload.length_eq.symm halike
        rw [reserveWithin_of_crowded h.toSound fuel hfull, reserveWithin_of_crowded h'.toSound fuel (hcrowded.2 hfull),
          hevict, hevict']
        exact ih hholds hholds' hnext (hcapacity.symm ▸ hlength) fuel
      · rw [reserveWithin_of_room h.toSound fuel hfull, reserveWithin_of_room h'.toSound fuel (mt hcrowded.1 hfull)]
        exact ⟨halike, rfl⟩

theorem makeRoom_alike (h : r.Holds records) (h' : r'.Holds records')
    (hrecords : List.Forall₂ (List.Forall₂ ρ) records records') (halike : r.Alike ρ r') (total : Nat) :
    (r.makeRoom total).1.Alike ρ (r'.makeRoom total).1 ∧ (r'.makeRoom total).2 = (r.makeRoom total).2 := by
  by_cases hfits : frameLength total < r.capacity
  · rw [makeRoom_of_fits hfits, makeRoom_of_fits (halike.capacity.symm ▸ hfits), reserve, reserve, halike.capacity]
    exact h.reserveWithin_alike h' hrecords halike hfits _
  · rw [makeRoom_of_not_fits hfits, makeRoom_of_not_fits (halike.capacity.symm ▸ hfits), halike.capacity]
    exact ⟨halike, rfl⟩

/-- **Records of the same lengths.** The same frame is next, whatever the records say, if both cursors are in front of
records. -/
theorem matches_alike (h : r.Holds records) (h' : r'.Holds records')
    (hrecords : List.Forall₂ (List.Forall₂ ρ) records records')
    (halike : r.Alike ρ r') (hlies : r.image.Lies r.capacity r.cursor rest)
    (hlies' : r'.image.Lies r'.capacity r'.cursor rest')
    (hrest : List.Forall₂ (List.Forall₂ ρ) rest rest') : r.Matches ρ r' where
  toAlike := halike
  room := h.makeRoom_alike h' hrecords halike
  frame hne := by
    cases hrest with
    | nil => exact absurd ((hlies.eq_stop_iff h.cursor_lt h.stop_lt).2 rfl) hne
    | cons hpayload hmore =>
      have hframe' := Image.Lies.frameAt h'.toOpens h'.cursor_lt hlies'
      rw [halike.cursor, halike.image.stop_eq] at hframe'
      rw [hframe', Image.Lies.frameAt h.toOpens h.cursor_lt hlies, hpayload.length_eq]

end Ring.Holds

end Lengths

end CircularLog
