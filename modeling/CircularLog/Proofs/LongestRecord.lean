/-
The longest record that a ring takes. An append asks whether the frame of a record leaves a byte of the circle free;
`maxPayload` begins with a guess and goes down until a frame does. The two agree on every length because a frame of a
longer record is longer, and the search is short because no prefix takes more than ten bytes.

- `longestWithin_iff`: what is found is a bound of all the lengths whose frames are within the budget.
- `fits_iff_le_maxPayload`, `maxPayload_eq_none_iff`: the same for a ring.
- `Search.step`, `Search.run`: the search in rounds, with sums of 64 bits; `Search.run_eq`: how many rounds are enough.
- `longest_record_is_bound`: the check of an append, the bound, and the search for it.
-/
import CircularLog.Proofs.Eviction

namespace CircularLog

/-! ## The bound -/

section Bound

variable {budget capacity payload guess : Nat}

/-- from a guess that no frame within the budget goes past -/
theorem longestWithin_iff (hguess : ∀ payload, frameLength payload ≤ budget → payload ≤ guess) :
    frameLength payload ≤ budget ↔ ∃ longest ∈ longestWithin budget guess, payload ≤ longest := by
  induction guess with
  | zero =>
    rw [longestWithin]
    split
    · rename_i hfits
      constructor
      · exact fun h => ⟨0, rfl, hguess _ h⟩
      · rintro ⟨-, ⟨⟩, hle⟩
        exact (frameLength_strictMono.monotone hle).trans hfits
    · rename_i hlong
      constructor
      · intro h
        exact absurd ((frameLength_strictMono.monotone (Nat.zero_le payload)).trans h) hlong
      · rintro ⟨_, ⟨⟩, -⟩
  | succ guess ih =>
    rw [longestWithin]
    split
    · rename_i hfits
      constructor
      · exact fun h => ⟨guess + 1, rfl, hguess _ h⟩
      · rintro ⟨-, ⟨⟩, hle⟩
        exact (frameLength_strictMono.monotone hle).trans hfits
    · rename_i hlong
      -- the guess itself is too long, and so the one below it is a guess as well
      apply ih
      intro payload hpayload
      have hne : payload ≠ guess + 1 := fun heq => hlong (heq ▸ hpayload)
      have := hguess payload hpayload
      omega

/-- the frame of a record of `budget - 1` bytes has a prefix of at least one byte -/
theorem le_of_frameLength_le (h : frameLength payload ≤ budget) : payload ≤ budget - 1 := by
  have hsize := Varint.size_pos payload
  rw [frameLength_eq] at h
  omega

/-- a frame leaves a byte free exactly if the record is no longer than the longest -/
theorem fits_iff_le_maxPayload : frameLength payload < capacity
    ↔ ∃ longest ∈ maxPayload capacity, payload ≤ longest := by
  rw [maxPayload]
  split
  · rename_i hzero
    constructor
    · intro h
      omega
    · rintro ⟨_, ⟨⟩, -⟩
  · rw [← longestWithin_iff fun _ => le_of_frameLength_le]
    omega

theorem maxPayload_eq_none_iff : maxPayload capacity = none ↔ capacity < 2 := by
  have hempty : frameLength 0 = 1 := by decide
  have hfits := @fits_iff_le_maxPayload capacity 0
  rw [hempty] at hfits
  constructor
  · intro hnone
    by_contra hroom
    obtain ⟨longest, hlongest, -⟩ := hfits.1 (by omega)
    rw [hnone] at hlongest
    cases hlongest
  · intro hsmall
    rw [Option.eq_none_iff_forall_not_mem]
    intro longest hlongest
    have := hfits.2 ⟨longest, hlongest, Nat.zero_le _⟩
    omega

end Bound

/-! ## The search -/

/-- where the search is after a round -/
inductive Search where
  | found (longest : Nat)
  | nothing
  | below (payload : Nat)
deriving DecidableEq, Repr

namespace Search

/-- one round: the frame of a record of this length is within the budget, or the next shorter record is tried -/
def step (budget payload : Nat) : Outcome Search := do
  let length ← Word.add (Varint.size payload) payload
  if length ≤ budget then return .found payload
  else if payload = 0 then return .nothing
  else return .below (payload - 1)

/-- at most this many rounds -/
def run (budget : Nat) : Nat → Nat → Outcome (Option Nat)
  | 0, _ => .error (.fault .endless)
  | rounds + 1, payload => do
    match ← step budget payload with
    | .found longest => return some longest
    | .nothing => return none
    | .below payload => run budget rounds payload

/-- the search of `maxPayload`, from its guess -/
def longest (rounds capacity : Nat) : Outcome (Option Nat) :=
  if capacity = 0 then return none else run (capacity - 1) rounds (capacity - 1 - 1)

section Run

variable {budget capacity payload rounds : Nat}

theorem step_eq (h : frameLength payload < Word.bound) : step budget payload
    = .ok (if frameLength payload ≤ budget then .found payload else if payload = 0 then .nothing
      else .below (payload - 1)) := by
  have hsum : Word.add (Varint.size payload) payload = .ok (frameLength payload) := Word.add_eq_ok h
  simp only [step, hsum, bind, Except.bind]
  split
  · rfl
  · split <;> rfl

/-- every round brings the frame nearer to the budget by a byte at least, and no sum gets longer -/
theorem run_eq (hsum : frameLength payload < Word.bound) (hnear : frameLength payload ≤ budget + rounds) :
    run budget (rounds + 1) payload = .ok (longestWithin budget payload) := by
  induction rounds generalizing payload with
  | zero =>
    have hfits : frameLength payload ≤ budget := hnear
    simp only [run, step_eq hsum, if_pos hfits, bind, Except.bind]
    cases payload with
    | zero =>
      rw [longestWithin, if_pos hfits]
      rfl
    | succ payload =>
      rw [longestWithin, if_pos hfits]
      rfl
  | succ rounds ih =>
    rw [run, step_eq hsum]
    cases payload with
    | zero =>
      rw [longestWithin]
      split <;> rfl
    | succ payload =>
      rw [longestWithin]
      split
      · rfl
      · have hless : frameLength payload < frameLength (payload + 1) :=
          frameLength_strictMono (Nat.lt_succ_self payload)
        have hnearer : frameLength payload ≤ budget + rounds := by omega
        exact ih (hless.trans hsum) hnearer

/-- ten rounds are enough, as the first guess is too long by no more than its prefix -/
theorem longest_eq (hcapacity : capacity + 9 ≤ Word.bound) :
    longest Varint.maxSize capacity = .ok (maxPayload capacity) := by
  rw [longest, maxPayload]
  split
  · rfl
  · have hguess : frameLength (capacity - 1 - 1) ≤ capacity - 1 + 9 := by
      rcases Nat.lt_or_ge 1 capacity with hroom | hsmall
      · have hsize : Varint.size (capacity - 1 - 1) ≤ Varint.maxSize := Varint.size_le_maxSize (by omega)
        have hten : Varint.maxSize = 10 := rfl
        rw [frameLength_eq]
        omega
      · obtain rfl : capacity = 1 := by omega
        decide
    exact run_eq (by omega) hguess

end Run

end Search

/-! ## Acceptance -/

namespace Ring

/-- the check of an append as 64 bits do it: a sum that they do not hold is refused like one that is too long -/
def fittingWord (r : Ring) (payload : Nat) : Outcome Nat :=
  match Word.add payload (Varint.size payload) with
  | .error _ => refuse (.recordTooLarge r.capacity payload)
  | .ok length => if length < r.capacity then pure length else refuse (.recordTooLarge r.capacity payload)

section Acceptance

variable {r : Ring} {payload : Nat}

theorem fittingWord_eq (hcapacity : r.capacity ≤ Word.bound) : r.fittingWord payload = r.fitting payload := by
  have hcomm : payload + Varint.size payload = frameLength payload := Nat.add_comm _ _
  rw [fittingWord, Word.add, hcomm]
  split
  · rename_i hsum
    split at hsum
    · cases hsum
    · rw [fitting_eq_error (by omega)]
  · rename_i hsum
    split at hsum
    · obtain rfl := Except.ok.inj hsum
      rfl
    · cases hsum

theorem fitting_iff_le_maxPayload :
    (∃ length, r.fitting payload = .ok length) ↔ ∃ longest ∈ maxPayload r.capacity, payload ≤ longest := by
  rw [← fits_iff_le_maxPayload]
  constructor
  · rintro ⟨length, hfitting⟩
    exact (fitting_ok hfitting).1
  · exact fun hfits => ⟨_, fitting_eq_ok hfits⟩

end Acceptance

/-- `longest?` bounds the records that the ring takes, by the check of an append -/
structure Bounds (r : Ring) (longest? : Option Nat) : Prop where
  accepts_iff : ∀ payload, (∃ length, r.fitting payload = .ok length) ↔ ∃ longest ∈ longest?, payload ≤ longest
  /-- the check is the same on numbers of 64 bits -/
  word : ∀ payload, r.fittingWord payload = r.fitting payload
  /-- for a record that is accepted, given at once or begun, room is made -/
  accepted : ∀ payload, (∃ longest ∈ longest?, payload ≤ longest) → r.makeRoom payload = r.reserve (frameLength payload)
  /-- and one that is not leaves the ring as it was -/
  declined : ∀ payload : Bytes, (¬∃ longest ∈ longest?, payload.length ≤ longest) →
    r.append payload = (r, refuse (.recordTooLarge r.capacity payload.length))
  not_begun : ∀ total, (¬∃ longest ∈ longest?, total ≤ longest) →
    Writer.start r total = (r, refuse (.recordTooLarge r.capacity total))
  none_iff : longest? = none ↔ ∀ payload, ¬∃ length, r.fitting payload = .ok length
  none_iff_small : longest? = none ↔ r.capacity < 2

end Ring

/-- **The longest record is the bound of what is accepted.** For every capacity up to `2 ^ 64 - 9` and every length; and
the search for it comes to it after at most ten rounds, none of which has a sum that 64 bits do not hold. -/
theorem longest_record_is_bound {r : Ring} (hcapacity : r.capacity + 9 ≤ Word.bound) :
    r.Bounds (maxPayload r.capacity) ∧ Search.longest Varint.maxSize r.capacity = .ok (maxPayload r.capacity) := by
  refine ⟨?_, Search.longest_eq hcapacity⟩
  have hdeclined : ∀ payload, (¬∃ longest ∈ maxPayload r.capacity, payload ≤ longest) →
      r.makeRoom payload = (r, refuse (.recordTooLarge r.capacity payload)) := by
    intro payload hlong
    rw [← fits_iff_le_maxPayload] at hlong
    exact Ring.makeRoom_of_not_fits hlong
  exact
    { accepts_iff := fun _ => Ring.fitting_iff_le_maxPayload
      word := fun _ => Ring.fittingWord_eq (by omega)
      accepted := fun _ hshort => Ring.makeRoom_of_fits (fits_iff_le_maxPayload.2 hshort)
      declined := fun payload hlong => Ring.append_of_stop (hdeclined payload.length hlong)
      not_begun := fun total hlong => Ring.start_of_stop (hdeclined total hlong)
      none_iff := by
        simp only [Ring.fitting_iff_le_maxPayload]
        constructor
        · rintro hnone payload ⟨longest, hlongest, -⟩
          rw [hnone] at hlongest
          cases hlongest
        · intro hall
          rw [Option.eq_none_iff_forall_not_mem]
          exact fun longest hlongest => hall longest ⟨longest, hlongest, le_rfl⟩
      none_iff_small := maxPayload_eq_none_iff }

/-- the largest capacity for which no sum leaves 64 bits -/
def widestRing : Ring := { image := .empty, capacity := 2 ^ 64 - 9, cursor := 0 }

/-- the guess is nine bytes too long there, and the record that is found has a prefix of ten bytes -/
theorem longest_record_widest :
    widestRing.capacity + 9 ≤ Word.bound ∧ maxPayload widestRing.capacity = some (2 ^ 64 - 20)
      ∧ widestRing.fitting (2 ^ 64 - 20) = .ok (2 ^ 64 - 10)
      ∧ widestRing.fitting (2 ^ 64 - 19) = refuse (.recordTooLarge widestRing.capacity (2 ^ 64 - 19)) := by
  have hcapacity : widestRing.capacity + 9 ≤ Word.bound := by decide
  obtain ⟨-, hsearch⟩ := longest_record_is_bound hcapacity
  have hfound : Search.longest Varint.maxSize widestRing.capacity = .ok (some (2 ^ 64 - 20)) := by decide +kernel
  exact ⟨hcapacity, Except.ok.inj (hsearch.symm.trans hfound), by decide +kernel, by decide +kernel⟩

end CircularLog
