/-
Appends that are refused. Room is made by dropping the oldest records, and what was dropped stays dropped when a corrupt
frame stops the drops half way. Nothing else of the file is touched, and the ring comes to rest where asking again is
refused in the same way.

- `Ring.declines_iff`: a record is refused, given at once or begun, exactly if no room can be made for it.
- `Ring.Rounds.refused`: where the drops come to rest.
- `Ring.spared`: what is left as it was, and what asking again comes to.
- `refused_append_moves_start_only`: the same for every file that opens.
-/
import CircularLog.Proofs.Ranges

namespace CircularLog

namespace Ring

/-- a record of this length is refused, given at once or begun; `next` is the ring afterwards -/
def Declines (r : Ring) (total : Nat) (refusal : Refusal) (next : Ring) : Prop :=
  (∃ data : Bytes, data.length = total ∧ r.append data = (next, .error (.refused refusal)))
    ∨ Writer.start r total = (next, .error (.refused refusal))

/-- the start offset has gone past frames that were accepted, each of them dropped while too few bytes were free, and
rests before one that is not accepted, of which the caller is told -/
structure Rests (r : Ring) (total : Nat) (refusal : Refusal) (next : Ring) : Prop where
  dropped : ∃ n, Rounds total r n next ∧ r.Walk (r.Crowded (frameLength total)) r.image.start n next.image.start
  rejects : r.frameAt next.image.start r.image.stop = .error (.refused refusal)
  told : ∀ path, (refusal.report path).offset = some next.image.start

/-- what a refusal leaves of the ring -/
structure Spared (r : Ring) (total : Nat) (refusal : Refusal) (next : Ring) : Prop where
  capacity : next.capacity = r.capacity
  size : next.image.size = r.image.size
  front : next.image.front = r.image.front
  flags : next.image.flags = r.image.flags
  stop : next.image.stop = r.image.stop
  circle : next.image.circle = r.image.circle
  kind : refusal.kind = .recordTooLarge ∨ refusal.kind = .corruptFrame
  too_large : refusal.kind = .recordTooLarge → next = r
  corrupt : refusal.kind = .corruptFrame → r.Rests total refusal next
  append_again : ∀ data : Bytes, data.length = total → next.append data = (next, .error (.refused refusal))
  start_again : Writer.start next total = (next, .error (.refused refusal))

section Refusing

variable {r r₁ next : Ring} {total length n offset stop : Nat} {refusal : Refusal}

/-- the refusal of a frame names the place of the frame -/
theorem report_offset_of_frameAt (h : r.image.Opens r.capacity) (hoffset : offset < r.capacity)
    (hstop : stop < r.capacity) (hframe : r.frameAt offset stop = .error (.refused refusal)) (path : Option Path) :
    (refusal.report path).offset = some offset := by
  rw [frameAt_eq h hoffset hstop] at hframe
  split at hframe
  · cases hframe
    rfl
  · split at hframe
    · cases hframe
      rfl
    · cases hframe

/-- a record is refused exactly if no room is made for it -/
theorem declines_iff (h : r.Sound) : r.Declines total refusal next
    ↔ r.makeRoom total = (next, .error (.refused refusal)) := by
  constructor
  · rintro (⟨data, rfl, happend⟩ | hstart)
    · rw [append_eq h] at happend
      rcases hroom : r.makeRoom data.length with ⟨r₁, stop | ⟨⟩⟩
      · rwa [hroom] at happend
      · rw [hroom] at happend
        cases (Prod.mk.inj happend).2
    · rw [Writer.start_eq h] at hstart
      rcases hroom : r.makeRoom total with ⟨r₁, stop | ⟨⟩⟩
      · rw [hroom] at hstart
        obtain ⟨rfl, hstop⟩ := Prod.mk.inj hstart
        cases hstop
        rfl
      · rw [hroom] at hstart
        cases (Prod.mk.inj hstart).2
  · intro hroom
    exact Or.inr (start_of_stop hroom)

/-- the rounds leave mark and flags as they were -/
theorem Rounds.front (h : r.Sound) (hrounds : Rounds total r n r₁) : r₁.image.front = r.image.front := by
  induction hrounds with
  | none => rfl
  | more hrounds hround ih =>
    have hsound := (hrounds.walk h).1.sound
    obtain ⟨-, -, frame, -, rfl⟩ := (round_iff hsound).1 hround
    exact (Image.front_setStart hsound.block_le).trans ih

/-- before a frame that is not accepted the loop stops at once, and the ring stays as it is -/
theorem reserveWithin_of_rejected (h : r.Sound) (hfits : length < r.capacity)
    (hcrowded : r.Crowded length r.image.start)
    {reason : Stop} (hframe : r.frameAt r.image.start r.image.stop = .error reason) (fuel : Nat) :
    reserveWithin (fuel + 1) r length = (r, .error reason) := by
  rw [reserveWithin_of_crowded h fuel hcrowded, evict_eq h,
    if_neg (start_ne_stop_of_crowded h hfits hcrowded h.start_lt), hframe]

/-- where the loop is refused, it has made rounds and has come before a frame that is not accepted -/
theorem Rounds.refused (h : r.Sound) (hfits : frameLength total < r.capacity) {fuel : Nat}
    (hrounds : Rounds total r n r₁)
    (hrefused : reserveWithin fuel r₁ (frameLength total) = (next, .error (.refused refusal))) :
    ∃ m, Rounds total r m next ∧ next.Crowded (frameLength total) next.image.start
      ∧ next.frameAt next.image.start next.image.stop = .error (.refused refusal) := by
  -- over all rings that rounds have led to: each further round takes one off the fuel
  induction fuel generalizing n r₁ with
  | zero => cases (Prod.mk.inj hrefused).2
  | succ fuel ih =>
    obtain ⟨hsame, -⟩ := hrounds.walk h
    have hsound := hsame.sound
    by_cases hcrowded : r₁.Crowded (frameLength total) r₁.image.start
    · have hfits' : frameLength total < r₁.capacity := hsame.capacity ▸ hfits
      cases hframe : r₁.frameAt r₁.image.start r₁.image.stop with
      | error reason =>
        rw [reserveWithin_of_rejected hsound hfits' hcrowded hframe] at hrefused
        obtain ⟨rfl, hreason⟩ := Prod.mk.inj hrefused
        obtain rfl := Except.error.inj hreason
        exact ⟨n, hrounds, hcrowded, hframe⟩
      | ok frame =>
        have hround : Round total r₁ (r₁.drop frame) := (round_iff hsound).2 ⟨hfits', hcrowded, frame, hframe, rfl⟩
        have hne := start_ne_stop_of_crowded hsound hfits' hcrowded hsound.start_lt
        rw [reserveWithin_of_crowded hsound fuel hcrowded, evict_eq hsound, if_neg hne, hframe] at hrefused
        exact ih (hrounds.more hround) hrefused
    · rw [reserveWithin_of_room hsound fuel hcrowded] at hrefused
      cases (Prod.mk.inj hrefused).2

/-- a record that can never fit is refused before anything is dropped -/
theorem spared_of_not_fits (hlong : ¬frameLength total < r.capacity) :
    r.Spared total (.recordTooLarge r.capacity total) r where
  capacity := rfl
  size := rfl
  front := rfl
  flags := rfl
  stop := rfl
  circle := rfl
  kind := Or.inl rfl
  too_large := fun _ => rfl
  corrupt := fun hkind => by cases hkind
  append_again := by
    rintro data rfl
    exact append_of_stop (makeRoom_of_not_fits hlong)
  start_again := start_of_stop (makeRoom_of_not_fits hlong)

/-- where the drops come to rest, the file has lost the dropped records and nothing else -/
theorem spared_of_rejected (h : r.Sound) (hfits : frameLength total < r.capacity) (hrounds : Rounds total r n next)
    (hcrowded : next.Crowded (frameLength total) next.image.start)
    (hframe : next.frameAt next.image.start next.image.stop = .error (.refused refusal)) :
    r.Spared total refusal next := by
  obtain ⟨hsame, hwalk⟩ := hrounds.walk h
  have hfits' : frameLength total < next.capacity := hsame.capacity ▸ hfits
  have hkind : refusal.kind = .corruptFrame := by
    have hsound := hsame.sound
    obtain ⟨found, hfound, hcorrupt⟩ := frameAt_error hsound.size hsound.bounded hsound.start_lt hsound.stop_lt hframe
    cases hfound
    exact hcorrupt.kind_eq
  have hagain : next.makeRoom total = (next, .error (.refused refusal)) := by
    rw [makeRoom_of_fits hfits']
    exact reserveWithin_of_rejected hsame.sound hfits' hcrowded hframe _
  have hrejects : r.frameAt next.image.start r.image.stop = .error (.refused refusal) :=
    (hsame.frameAt h (hwalk.place_lt h.start_lt)).symm.trans hframe
  exact
    { capacity := hsame.capacity
      size := by rw [hsame.sound.size, h.size, hsame.capacity]
      front := hrounds.front h
      flags := Image.flags_of_front (hrounds.front h)
      stop := hsame.stop
      circle := hsame.circle
      kind := Or.inr hkind
      too_large := fun hlarge => by cases hkind.symm.trans hlarge
      corrupt := fun _ => ⟨⟨n, hrounds, hwalk⟩, hrejects,
        report_offset_of_frameAt h.toOpens (hwalk.place_lt h.start_lt) h.stop_lt hrejects⟩
      append_again := by
        rintro data rfl
        exact append_of_stop hagain
      start_again := start_of_stop hagain }

theorem spared (h : r.Sound) (hdeclines : r.Declines total refusal next) : r.Spared total refusal next := by
  have hroom := (declines_iff h).1 hdeclines
  by_cases hfits : frameLength total < r.capacity
  · rw [makeRoom_of_fits hfits] at hroom
    obtain ⟨n, hrounds, hcrowded, hframe⟩ := Rounds.none.refused h hfits hroom
    exact spared_of_rejected h hfits hrounds hcrowded hframe
  · rw [makeRoom_of_not_fits hfits] at hroom
    obtain ⟨rfl, hrefused⟩ := Prod.mk.inj hroom
    cases hrefused
    exact spared_of_not_fits hfits

end Refusing

end Ring

/-! ## Files that open -/

/-- **What a refused append leaves behind.** On a file that opens, with whatever data, and for a handle with whatever
cursor: a refused append leaves the mark, the flags, the stop offset and every byte of the data as they were. If the
record is too large, nothing has changed at all. Otherwise the start offset has gone past accepted frames only, each of
them dropped while too few bytes were free, and rests before the frame that is not accepted. The same record is refused
again in the same way, and that changes nothing. -/
theorem refused_append_moves_start_only {fs : FileSystem} {path : Path} {handle : Handle} {cursor total : Nat}
    {refusal : Refusal} {next : Ring} (hopen : Handle.openRing fs path .append = .ok handle)
    (hfile : (fs.image handle.node).size ≤ Image.maxSize) (hcursor : cursor < handle.capacity)
    (hdeclines : (Handle.ring { handle with cursor } fs).Declines total refusal next) :
    (Handle.ring { handle with cursor } fs).Spared total refusal next := by
  obtain ⟨-, hopens, -⟩ := Handle.of_openRing hopen hfile
  have hsound : (Handle.ring { handle with cursor } fs).Sound := ⟨hopens, hcursor⟩
  exact Ring.spared hsound hdeclines

/-- a record of one byte, and behind it a prefix that states more bytes than there are -/
def brokenFile : FileSystem := .single 0 5 [0x01, 0xAA, 0x7F, 0xBB, 0xCC, 0xFF, 0xFF, 0xFF]

/-- the record of one byte goes, and the broken one stays in the way -/
theorem refused_append_brokenFile :
    ∃ next, (Handle.openRing brokenFile FileSystem.singleName .append = .ok singleHandle
        ∧ (brokenFile.image singleHandle.node).size ≤ Image.maxSize ∧ 1 < singleHandle.capacity
        ∧ (Handle.ring { singleHandle with cursor := 1 } brokenFile).Declines 4 (.frameTooLong 2 127) next)
      ∧ next.image.start = 2 ∧ next.cursor = 2
      ∧ (Handle.ring { singleHandle with cursor := 1 } brokenFile).Spared 4 (.frameTooLong 2 127) next := by
  obtain ⟨next, hnext⟩ : ∃ next, next = (Writer.start (Handle.ring { singleHandle with cursor := 1 } brokenFile) 4).1 :=
    ⟨_, rfl⟩
  have hopen : Handle.openRing brokenFile FileSystem.singleName .append = .ok singleHandle := by decide
  have hfile : (brokenFile.image singleHandle.node).size ≤ Image.maxSize := by decide
  have hrefused : (Writer.start (Handle.ring { singleHandle with cursor := 1 } brokenFile) 4).2
      = .error (.refused (.frameTooLong 2 127)) := by decide +kernel
  have hdeclines : (Handle.ring { singleHandle with cursor := 1 } brokenFile).Declines 4 (.frameTooLong 2 127) next :=
    Or.inr (Prod.ext hnext.symm hrefused)
  refine ⟨next, ⟨hopen, hfile, by decide, hdeclines⟩, ?_, ?_,
    refused_append_moves_start_only hopen hfile (by decide) hdeclines⟩
  · rw [hnext]
    decide +kernel
  · rw [hnext]
    decide +kernel

end CircularLog
