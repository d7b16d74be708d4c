/-
The loop that makes room for a record. It drops the oldest record until more bytes are free than the new frame takes;
one round is `Ring.Round`, and `Ring.Evicts` is what is wanted of it: every round takes a whole frame off the used
bytes, and so the loop ends.

- `Ring.round_iff`: a round drops the oldest record, and is made exactly where too little is free and a frame is found.
- `Ring.Rounds.walk`, `Ring.Walk.rounds`: the rounds are a walk over the data as they were before the first of them.
- `Ring.evicts_iff`: the loop does what is wanted of it exactly if that walk is contained.
- `eviction_ends_iff_contained`: the same for every file that opens.
- `eviction_past_stop`: a file that opens, on which the walk is not contained.
-/
import CircularLog.Proofs.Opening
import CircularLog.Proofs.Walk

namespace CircularLog

/-- a value or a refusal, as opposed to a fault -/
def Outcome.Answers {α : Type} (result : Outcome α) : Prop := ∀ fault, result ≠ .error (.fault fault)

namespace Ring

/-- a round of the loop: a record of this length fits in the ring, too few bytes are free for it, and the oldest record
is dropped -/
def Round (payload : Nat) (r r' : Ring) : Prop :=
  ∃ length free, r.fitting payload = .ok length ∧ r.available = .ok free ∧ free ≤ length ∧ r.evict = (r', .ok ())

inductive Rounds (payload : Nat) (r : Ring) : Nat → Ring → Prop
  | none : Rounds payload r 0 r
  | more {n : Nat} {r₁ r₂ : Ring} : Rounds payload r n r₁ → Round payload r₁ r₂ → Rounds payload r (n + 1) r₂

/-- how the loop may end: with room for the record, or with a refusal -/
def Settled (payload : Nat) (r : Ring) (result : Outcome Unit) : Prop :=
  (result = .ok () ∧ ∃ free, r.available = .ok free ∧ frameLength payload < free)
    ∨ ∃ refusal, result = .error (.refused refusal)

/-- room is made for a record of this length in finitely many rounds -/
structure Evicts (r : Ring) (payload : Nat) : Prop where
  /-- a round takes the dropped frame, and nothing else, off the used bytes -/
  shortens : ∀ n r₁ r₂, Rounds payload r n r₁ → Round payload r₁ r₂ →
    ∃ frame left, r₁.frameAt r₁.image.start r₁.image.stop = .ok frame ∧ 0 < frame.length
      ∧ r₁.used = .ok (left + frame.length) ∧ r₂.used = .ok left
  few : ∀ n r₁, Rounds payload r n r₁ → n ≤ r.capacity
  ends : ∃ n, Rounds payload r n (r.makeRoom payload).1
  settled : Settled payload (r.makeRoom payload).1 (r.makeRoom payload).2
  append : ∀ data : Bytes, data.length = payload → Outcome.Answers (r.append data).2
  start : Outcome.Answers (Writer.start r payload).2

/-- too few bytes are free for a frame of this length, if the records begin at the place -/
def Crowded (r : Ring) (length place : Nat) : Prop := r.capacity - r.ahead place ≤ length

instance (r : Ring) (length place : Nat) : Decidable (r.Crowded length place) :=
  inferInstanceAs (Decidable (r.capacity - r.ahead place ≤ length))

section Rounds

variable {r r₁ r₂ : Ring} {payload length n place : Nat} {frame : Frame}

theorem fitting_eq_ok (hfits : frameLength payload < r.capacity) : r.fitting payload = .ok (frameLength payload) :=
  if_pos hfits

theorem fitting_eq_error (hlong : ¬frameLength payload < r.capacity) :
    r.fitting payload = refuse (.recordTooLarge r.capacity payload) := if_neg hlong

theorem fitting_ok (h : r.fitting payload = .ok length) :
    frameLength payload < r.capacity ∧ length = frameLength payload := by
  by_cases hfits : frameLength payload < r.capacity
  · rw [fitting_eq_ok hfits] at h
    exact ⟨hfits, (Except.ok.inj h).symm⟩
  · rw [fitting_eq_error hfits] at h
    cases h

theorem crowded_start : r.Crowded length r.image.start ↔ r.capacity - r.load ≤ length := by
  rw [Crowded, load_eq_ahead]

/-- a frame is refused, never a fault -/
theorem frameAt_answers (h : r.image.Opens r.capacity) {offset stop : Nat} (hoffset : offset < r.capacity)
    (hstop : stop < r.capacity) : Outcome.Answers (r.frameAt offset stop) := by
  intro fault hfault
  rw [frameAt_eq h hoffset hstop] at hfault
  split at hfault
  · cases hfault
  · split at hfault <;> cases hfault

theorem start_ne_stop_of_crowded (h : r.Sound) (hfits : length < r.capacity) (hcrowded : r.Crowded length place)
    (hplace : place < r.capacity) : place ≠ r.image.stop := by
  intro hempty
  have hzero := (ahead_eq_zero_iff h.toOpens hplace).2 hempty
  rw [Crowded, hzero] at hcrowded
  omega

theorem round_iff (h : r.Sound) :
    Round payload r r₁
      ↔ frameLength payload < r.capacity ∧ r.Crowded (frameLength payload) r.image.start
        ∧ ∃ frame, r.frameAt r.image.start r.image.stop = .ok frame ∧ r₁ = r.drop frame := by
  constructor
  · rintro ⟨length, free, hfitting, havailable, hfree, hevict⟩
    obtain ⟨hfits, rfl⟩ := fitting_ok hfitting
    rw [available_eq h.toOpens] at havailable
    obtain rfl := Except.ok.inj havailable
    refine ⟨hfits, hfree, ?_⟩
    rw [evict_eq h] at hevict
    split at hevict
    · cases hevict
    · split at hevict
      · cases hevict
      · exact ⟨_, ‹_›, (congrArg Prod.fst hevict).symm⟩
  · rintro ⟨hfits, hcrowded, frame, hframe, rfl⟩
    refine ⟨_, _, fitting_eq_ok hfits, available_eq h.toOpens, hcrowded, ?_⟩
    rw [evict_eq h, if_neg (start_ne_stop_of_crowded h hfits hcrowded h.start_lt), hframe]

/-- dropping a frame that ends at the stop offset or before it -/
theorem load_drop (h : r.Sound) (hlength : frame.length ≤ r.load) : (r.drop frame).load = r.load - frame.length := by
  rw [load, start_drop h, stop_drop h, capacity_drop]
  exact ahead_next h.toOpens h.start_lt hlength

/-- what the rounds leave as it was -/
structure Same (r r₁ : Ring) : Prop where
  sound : r₁.Sound
  capacity : r₁.capacity = r.capacity
  circle : r₁.image.circle = r.image.circle
  stop : r₁.image.stop = r.image.stop

theorem Same.refl (h : r.Sound) : Same r r := ⟨h, rfl, rfl, rfl⟩

theorem Same.trans (h : Same r r₁) (h' : Same r₁ r₂) : Same r r₂ :=
  ⟨h'.sound, h'.capacity.trans h.capacity, h'.circle.trans h.circle, h'.stop.trans h.stop⟩

theorem Same.drop (h : Same r r₁) (frame : Frame) : Same r (r₁.drop frame) where
  sound := h.sound.drop frame
  capacity := (capacity_drop r₁ frame).trans h.capacity
  circle := (circle_drop h.sound frame).trans h.circle
  stop := (stop_drop h.sound frame).trans h.stop

theorem Same.ahead (h : Same r r₁) (place : Nat) : r₁.ahead place = r.ahead place := by
  rw [Ring.ahead, Ring.ahead, h.capacity, h.stop]

theorem Same.crowded (h : Same r r₁) : r₁.Crowded length place ↔ r.Crowded length place := by
  rw [Crowded, Crowded, h.ahead, h.capacity]

theorem Same.frameAt (h : Same r r₁) (hsound : r.Sound) (hplace : place < r.capacity) :
    r₁.frameAt place r₁.image.stop = r.frameAt place r.image.stop := by
  rw [h.stop]
  exact frameAt_congr hsound.toOpens h.sound.toOpens h.capacity h.circle hplace hsound.stop_lt

/-- the rounds leave the data alone, and the start offset walks over them -/
theorem Rounds.walk (h : r.Sound) (hrounds : Rounds payload r n r₁) :
    Same r r₁ ∧ r.Walk (r.Crowded (frameLength payload)) r.image.start n r₁.image.start := by
  induction hrounds with
  | none => exact ⟨Same.refl h, Walk.here⟩
  | more hrounds hround ih =>
    obtain ⟨hsame, hwalk⟩ := ih
    obtain ⟨hfits, hcrowded, frame, hframe, rfl⟩ := (round_iff hsame.sound).1 hround
    refine ⟨hsame.drop frame, ?_⟩
    rw [hsame.frameAt h (hwalk.place_lt h.start_lt)] at hframe
    rw [start_drop hsame.sound, hsame.capacity]
    exact hwalk.next (hsame.crowded.1 hcrowded) hframe

/-- and each step of that walk is a round -/
theorem Walk.rounds (h : r.Sound) (hfits : frameLength payload < r.capacity)
    (hwalk : r.Walk (r.Crowded (frameLength payload)) r.image.start n place) :
    ∃ r₁, Rounds payload r n r₁ ∧ Same r r₁ ∧ r₁.image.start = place := by
  induction hwalk with
  | here => exact ⟨r, Rounds.none, Same.refl h, rfl⟩
  | @next n place frame hwalk hcrowded hframe ih =>
    obtain ⟨r₁, hrounds, hsame, rfl⟩ := ih
    rw [← hsame.frameAt h (hwalk.place_lt h.start_lt)] at hframe
    have hround : Round payload r₁ (r₁.drop frame) :=
      (round_iff hsame.sound).2 ⟨hsame.capacity ▸ hfits, hsame.crowded.2 hcrowded, frame, hframe, rfl⟩
    refine ⟨r₁.drop frame, hrounds.more hround, hsame.drop frame, ?_⟩
    rw [start_drop hsame.sound, hsame.capacity]

/-- on a contained walk the oldest frame of every round ends at the stop offset or before it -/
theorem Rounds.length_le_load (h : r.Sound)
    (hcontained : r.Contained (r.Crowded (frameLength payload)) r.image.start) (hrounds : Rounds payload r n r₁)
    (hcrowded : r₁.Crowded (frameLength payload) r₁.image.start)
    (hframe : r₁.frameAt r₁.image.start r₁.image.stop = .ok frame) : frame.length ≤ r₁.load := by
  obtain ⟨hsame, hwalk⟩ := hrounds.walk h
  rw [hsame.frameAt h (hwalk.place_lt h.start_lt)] at hframe
  rw [load_eq_ahead, hsame.ahead]
  exact hcontained _ _ _ hwalk (hsame.crowded.1 hcrowded) hframe

/-! ### The loop as a whole -/

-- without this the two sides are compared by computing what is free
attribute [local irreducible] available evict in
theorem reserveWithin_succ (fuel : Nat) (r : Ring) (length : Nat) :
    reserveWithin (fuel + 1) r length
      = match r.available with
        | .error stop => (r, .error stop)
        | .ok free =>
          if length < free then (r, .ok ())
          else
            match r.evict with
            | (r, .error stop) => (r, .error stop)
            | (r, .ok ()) => reserveWithin fuel r length := by
  rfl

theorem reserveWithin_of_room (h : r.Sound) (fuel : Nat) (hroom : ¬r.Crowded length r.image.start) :
    reserveWithin (fuel + 1) r length = (r, .ok ()) := by
  rw [crowded_start] at hroom
  have hfree : length < r.capacity - r.load := Nat.lt_of_not_le hroom
  simp only [reserveWithin_succ, available_eq h.toOpens, if_pos hfree]

theorem reserveWithin_of_crowded (h : r.Sound) (fuel : Nat) (hcrowded : r.Crowded length r.image.start) :
    reserveWithin (fuel + 1) r length
      = match r.evict with
        | (r, .error stop) => (r, .error stop)
        | (r, .ok ()) => reserveWithin fuel r length := by
  rw [crowded_start] at hcrowded
  have hfree : ¬length < r.capacity - r.load := Nat.not_lt_of_le hcrowded
  simp only [reserveWithin_succ, available_eq h.toOpens, if_neg hfree]

/-- on a contained walk the loop ends within as many rounds as bytes are used -/
theorem Rounds.settled (h : r.Sound) (hfits : frameLength payload < r.capacity)
    (hcontained : r.Contained (r.Crowded (frameLength payload)) r.image.start) {fuel : Nat}
    (hrounds : Rounds payload r n r₁) (hfuel : r₁.load < fuel) :
    (∃ m, Rounds payload r m (reserveWithin fuel r₁ (frameLength payload)).1)
      ∧ Settled payload (reserveWithin fuel r₁ (frameLength payload)).1
        (reserveWithin fuel r₁ (frameLength payload)).2 := by
  induction fuel generalizing n r₁ with
  | zero => omega
  | succ fuel ih =>
    obtain ⟨hsame, -⟩ := hrounds.walk h
    have hsound := hsame.sound
    by_cases hcrowded : r₁.Crowded (frameLength payload) r₁.image.start
    · have hfits' : frameLength payload < r₁.capacity := hsame.capacity ▸ hfits
      have hevict := evict_eq hsound
      rw [if_neg (start_ne_stop_of_crowded hsound hfits' hcrowded hsound.start_lt)] at hevict
      rw [reserveWithin_of_crowded hsound fuel hcrowded, hevict]
      cases hframe : r₁.frameAt r₁.image.start r₁.image.stop with
      | error stop =>
        cases stop with
        | refused refusal => exact ⟨⟨n, hrounds⟩, Or.inr ⟨refusal, rfl⟩⟩
        | fault fault => exact absurd hframe (frameAt_answers hsound.toOpens hsound.start_lt hsound.stop_lt fault)
      | ok frame =>
        -- the round takes the frame off the used bytes, which leaves fuel for the others
        have hround : Round payload r₁ (r₁.drop frame) := (round_iff hsound).2 ⟨hfits', hcrowded, frame, hframe, rfl⟩
        have hpos := (frame_length_le hsound.toOpens hsound.start_lt hsound.stop_lt hframe).1
        have hwithin := hrounds.length_le_load h hcontained hcrowded hframe
        have hload := load_drop hsound hwithin
        exact ih (hrounds.more hround) (by omega)
    · rw [reserveWithin_of_room hsound fuel hcrowded]
      rw [crowded_start] at hcrowded
      exact ⟨⟨n, hrounds⟩, Or.inl ⟨rfl, _, available_eq hsound.toOpens, Nat.lt_of_not_le hcrowded⟩⟩

theorem makeRoom_of_fits (hfits : frameLength payload < r.capacity) :
    r.makeRoom payload = r.reserve (frameLength payload) := by
  rw [makeRoom, fitting_eq_ok hfits]

theorem makeRoom_of_not_fits (hlong : ¬frameLength payload < r.capacity) :
    r.makeRoom payload = (r, refuse (.recordTooLarge r.capacity payload)) := by
  rw [makeRoom, fitting_eq_error hlong]
  rfl

/-- the loop changes neither the data nor the stop offset, however it ends -/
theorem Same.reserveWithin (h : Same r r₁) (fuel length : Nat) : Same r (reserveWithin fuel r₁ length).1 := by
  induction fuel generalizing r₁ with
  | zero => exact h
  | succ fuel ih =>
    by_cases hcrowded : r₁.Crowded length r₁.image.start
    · rw [reserveWithin_of_crowded h.sound fuel hcrowded, evict_eq h.sound]
      by_cases hempty : r₁.image.start = r₁.image.stop
      · rw [if_pos hempty]
        exact h
      · rw [if_neg hempty]
        cases hframe : r₁.frameAt r₁.image.start r₁.image.stop with
        | error stop => exact h
        | ok frame => exact ih (h.drop frame)
    · rw [reserveWithin_of_room h.sound fuel hcrowded]
      exact h

theorem same_makeRoom (h : r.Sound) (payload : Nat) : Same r (r.makeRoom payload).1 := by
  by_cases hfits : frameLength payload < r.capacity
  · rw [makeRoom_of_fits hfits]
    exact (Same.refl h).reserveWithin _ _
  · rw [makeRoom_of_not_fits hfits]
    exact Same.refl h

/-! ### Appending behind the room -/

theorem append_of_stop {data : Bytes} {stop : Stop} (hroom : r.makeRoom data.length = (r₁, .error stop)) :
    r.append data = (r₁, .error stop) := by
  rw [append, hroom]

theorem append_of_room {data : Bytes} (hroom : r.makeRoom data.length = (r₁, .ok ()))
    (h : r₁.image.Opens r₁.capacity) (hfits : frameLength data.length < r₁.capacity) :
    r.append data
      = (r₁.place
          { header := Region.stretch r₁.capacity r₁.image.stop (Varint.size data.length)
            payload := Region.stretch r₁.capacity (r₁.image.stop + Varint.size data.length) data.length
            next := (r₁.image.stop + frameLength data.length) % r₁.capacity } data, .ok ()) := by
  rw [append, hroom]
  simp only [vacancy_eq h hfits]

theorem start_of_stop {stop : Stop} (hroom : r.makeRoom payload = (r₁, .error stop)) :
    Writer.start r payload = (r₁, .error stop) := by
  rw [Writer.start, hroom]

theorem start_of_room (hroom : r.makeRoom payload = (r₁, .ok ())) (h : r₁.image.Opens r₁.capacity)
    (hfits : frameLength payload < r₁.capacity) :
    Writer.start r payload
      = (r₁, .ok { offset := r₁.image.stop, total := payload
                   next := (r₁.image.stop + Varint.size payload) % r₁.capacity, remaining := payload }) := by
  rw [Writer.start, hroom]
  simp only [atStop_eq h hfits]

/-- a record is appended, or begun, if there is room for it, and refused if there is none -/
theorem answers_of_settled (h : r.Sound) (hsettled : Settled payload (r.makeRoom payload).1 (r.makeRoom payload).2) :
    (∀ data : Bytes, data.length = payload → Outcome.Answers (r.append data).2)
      ∧ Outcome.Answers (Writer.start r payload).2 := by
  have hopens := (same_makeRoom h payload).sound.toOpens
  have hcapacity := (same_makeRoom h payload).capacity
  rcases hroom : r.makeRoom payload with ⟨r₁, result⟩
  rw [hroom] at hsettled hopens hcapacity
  rcases hsettled with ⟨hok, -⟩ | ⟨refusal, hrefused⟩
  · obtain rfl : result = .ok () := hok
    have hfits : frameLength payload < r₁.capacity := by
      by_contra hlong
      rw [makeRoom_of_not_fits (hcapacity ▸ hlong)] at hroom
      cases congrArg Prod.snd hroom
    constructor
    · rintro data rfl fault
      rw [append_of_room hroom hopens hfits]
      simp
    · intro fault
      rw [start_of_room hroom hopens hfits]
      simp
  · obtain rfl : result = .error (.refused refusal) := hrefused
    constructor
    · rintro data rfl fault
      rw [append_of_stop hroom]
      simp
    · intro fault
      rw [start_of_stop hroom]
      simp

/-! ### When the loop ends -/

theorem Round.fits (h : r.Sound) (hround : Round payload r r₁) : frameLength payload < r.capacity :=
  ((round_iff h).1 hround).1

theorem Evicts.of_contained (h : r.Sound) (hfits : frameLength payload < r.capacity)
    (hcontained : r.Contained (r.Crowded (frameLength payload)) r.image.start) : Evicts r payload := by
  have hload : r.load < r.capacity + 2 := (load_lt h.toOpens).trans_le (Nat.le_add_right _ _)
  obtain ⟨hends, hsettled⟩ := Rounds.none.settled h hfits hcontained hload
  have hroom : r.makeRoom payload = Ring.reserveWithin (r.capacity + 2) r (frameLength payload) :=
    makeRoom_of_fits hfits
  rw [← hroom] at hends hsettled
  obtain ⟨happend, hstart⟩ := answers_of_settled h hsettled
  refine ⟨?_, ?_, hends, hsettled, happend, hstart⟩
  · intro n r₁ r₂ hrounds hround
    obtain ⟨hsame, -⟩ := hrounds.walk h
    obtain ⟨-, hcrowded, frame, hframe, rfl⟩ := (round_iff hsame.sound).1 hround
    have hpos := (frame_length_le hsame.sound.toOpens hsame.sound.start_lt hsame.sound.stop_lt hframe).1
    have hwithin := hrounds.length_le_load h hcontained hcrowded hframe
    refine ⟨frame, r₁.load - frame.length, hframe, hpos, ?_, ?_⟩
    · rw [used_eq hsame.sound.toOpens, Nat.sub_add_cancel hwithin]
    · rw [used_eq (hsame.drop frame).sound.toOpens, load_drop hsame.sound hwithin]
  · intro n r₁ hrounds
    have hle := (hrounds.walk h).2.ahead_le h.toOpens h.start_lt hcontained
    have hlt := ahead_lt (r := r) h.start_lt
    omega

theorem Evicts.of_not_fits (h : r.Sound) (hlong : ¬frameLength payload < r.capacity) : Evicts r payload := by
  have hroom := makeRoom_of_not_fits (r := r) hlong
  have hnone : ∀ n r₁, Rounds payload r n r₁ → n = 0 ∧ r₁ = r := by
    intro n r₁ hrounds
    induction hrounds with
    | none => exact ⟨rfl, rfl⟩
    | more _ hround ih =>
      obtain ⟨-, rfl⟩ := ih
      exact absurd (hround.fits h) hlong
  have hsettled : Settled payload (r.makeRoom payload).1 (r.makeRoom payload).2 := by
    rw [hroom]
    exact Or.inr ⟨_, rfl⟩
  obtain ⟨happend, hstart⟩ := answers_of_settled h hsettled
  refine ⟨?_, ?_, ⟨0, ?_⟩, hsettled, happend, hstart⟩
  · intro n r₁ r₂ hrounds hround
    obtain ⟨-, rfl⟩ := hnone n r₁ hrounds
    exact absurd (hround.fits h) hlong
  · intro n r₁ hrounds
    obtain ⟨rfl, -⟩ := hnone n r₁ hrounds
    exact Nat.zero_le _
  · rw [hroom]
    exact Rounds.none

/-- a round that takes its frame off the used bytes did not step past the stop offset -/
theorem Evicts.contained (h : r.Sound) (hfits : frameLength payload < r.capacity) (hevicts : Evicts r payload) :
    r.Contained (r.Crowded (frameLength payload)) r.image.start := by
  intro n place frame hwalk hcrowded hframe
  obtain ⟨r₁, hrounds, hsame, rfl⟩ := hwalk.rounds h hfits
  rw [← hsame.frameAt h (hwalk.place_lt h.start_lt)] at hframe
  have hround : Round payload r₁ (r₁.drop frame) :=
    (round_iff hsame.sound).2 ⟨hsame.capacity ▸ hfits, hsame.crowded.2 hcrowded, frame, hframe, rfl⟩
  obtain ⟨frame', left, hframe', -, hused, -⟩ := hevicts.shortens n r₁ _ hrounds hround
  obtain rfl : frame' = frame := Except.ok.inj (hframe'.symm.trans hframe)
  rw [used_eq hsame.sound.toOpens] at hused
  have hload : r₁.load = left + frame'.length := Except.ok.inj hused
  rw [← hsame.ahead, ← load_eq_ahead, hload]
  exact Nat.le_add_left _ _

theorem evicts_iff (h : r.Sound) (payload : Nat) :
    Evicts r payload
      ↔ (frameLength payload < r.capacity → r.Contained (r.Crowded (frameLength payload)) r.image.start) := by
  constructor
  · intro hevicts hfits
    exact hevicts.contained h hfits
  · intro hcontained
    by_cases hfits : frameLength payload < r.capacity
    · exact Evicts.of_contained h hfits (hcontained hfits)
    · exact Evicts.of_not_fits h hfits

end Rounds

end Ring

/-! ## Files that open -/

/-- on a file that opens, with whatever data, room is made as it should be exactly if no frame that is met on the way
steps past the stop offset -/
theorem eviction_ends_iff_contained {fs : FileSystem} {path : Path} {handle : Handle} {cursor : Nat}
    (hopen : Handle.openRing fs path .append = .ok handle) (hfile : (fs.image handle.node).size ≤ Image.maxSize)
    (hcursor : cursor < handle.capacity) (payload : Nat) :
    Ring.Evicts (Handle.ring { handle with cursor } fs) payload
      ↔ (frameLength payload < handle.capacity →
        (Handle.ring { handle with cursor } fs).Contained
          ((Handle.ring { handle with cursor } fs).Crowded (frameLength payload)) (fs.image handle.node).start) := by
  obtain ⟨-, hopens, -⟩ := Handle.of_openRing hopen hfile
  have hsound : (Handle.ring { handle with cursor } fs).Sound := ⟨hopens, hcursor⟩
  exact Ring.evicts_iff hsound payload

/-- a record of two bytes, which has to go before one of four can come -/
def crowdedFile : FileSystem := .single 0 3 [0x02, 0xAA, 0xBB, 0xFF, 0xFF, 0xFF, 0xFF, 0xFF]

/-- a record of two bytes behind a prefix of two, as long as it looks, that would go on behind the stop offset -/
def overlongFile : FileSystem := .single 0 3 [0x82, 0x00, 0xAA, 0xFF, 0xFF, 0xFF, 0xFF, 0xFF]

/-- the handle that either file is opened with -/
def singleHandle : Handle :=
  { path := FileSystem.singleName, node := 0, access := .append, capacity := 8, cursor := 0 }

theorem eviction_ends_crowdedFile :
    Handle.openRing crowdedFile FileSystem.singleName .append = .ok singleHandle
      ∧ (crowdedFile.image singleHandle.node).size ≤ Image.maxSize ∧ 5 < singleHandle.capacity
      ∧ Ring.Evicts (Handle.ring { singleHandle with cursor := 5 } crowdedFile) 4 := by
  have hopen : Handle.openRing crowdedFile FileSystem.singleName .append = .ok singleHandle := by decide
  have hfile : (crowdedFile.image singleHandle.node).size ≤ Image.maxSize := by decide
  refine ⟨hopen, hfile, by decide, (eviction_ends_iff_contained hopen hfile (by decide) 4).2 ?_⟩
  intro _
  have hframe : (Handle.ring { singleHandle with cursor := 5 } crowdedFile).frameAt 0
      (Handle.ring { singleHandle with cursor := 5 } crowdedFile).image.stop = .ok ⟨0, 1, 2⟩ := by decide
  exact Ring.contained_of_last hframe (by decide) (by decide)

/-- the drop moves the start offset from 0 to 4, past the stop offset at 3, and 7 bytes seem used where 3 were -/
theorem eviction_past_stop :
    ∃ handle, Handle.openRing overlongFile FileSystem.singleName .append = .ok handle
      ∧ (overlongFile.image handle.node).size ≤ Image.maxSize ∧ ¬Ring.Evicts (handle.ring overlongFile) 4 := by
  refine ⟨singleHandle, by decide, by decide, ?_⟩
  intro hevicts
  have hround : Ring.Round 4 (singleHandle.ring overlongFile) (singleHandle.ring overlongFile).evict.1 :=
    ⟨5, 5, by decide, by decide, by decide, by decide⟩
  obtain ⟨frame, left, -, -, hbefore, hafter⟩ := hevicts.shortens 0 _ _ Ring.Rounds.none hround
  have hthree : (singleHandle.ring overlongFile).used = .ok 3 := by decide
  have hseven : (singleHandle.ring overlongFile).evict.1.used = .ok 7 := by decide
  obtain rfl : 7 = left := Except.ok.inj (hseven.symm.trans hafter)
  have hsum : 3 = 7 + frame.length := Except.ok.inj (hthree.symm.trans hbefore)
  omega

end CircularLog
