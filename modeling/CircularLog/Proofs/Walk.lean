/-
Going from frame to frame. A walk passes one frame after another, and goes by the length that each prefix states and
takes. `Ring.frameAt` holds a frame against the stop offset with the shortest prefix of its length, and so a walk can
step past the stop offset, where a prefix is longer than that. `Ring.Contained` is that it does not.

- `Ring.ahead_next`, `Ring.ahead_next_past`: what one step does to the distance from the stop offset.
- `Ring.Walk.ahead_le`: a contained walk comes closer to the stop offset with every step.
-/
import CircularLog.Proofs.Step

namespace CircularLog.Ring

/-- how far it is forward from a place to the stop offset -/
def ahead (r : Ring) (place : Nat) : Nat := Circle.way r.capacity place r.image.stop

/-- the place behind `n` frames, the first of them at `origin`, and each at a place where `more` holds -/
inductive Walk (r : Ring) (more : Nat → Prop) (origin : Nat) : Nat → Nat → Prop
  | here : Walk r more origin 0 origin
  | next {n place : Nat} {frame : Frame} : Walk r more origin n place → more place →
      r.frameAt place r.image.stop = .ok frame → Walk r more origin (n + 1) ((place + frame.length) % r.capacity)

/-- every frame of the walk ends at the stop offset or before it -/
def Contained (r : Ring) (more : Nat → Prop) (origin : Nat) : Prop :=
  ∀ n place frame, r.Walk more origin n place → more place → r.frameAt place r.image.stop = .ok frame →
    frame.length ≤ r.ahead place

section Walk

variable {r r' : Ring} {more : Nat → Prop} {origin n place : Nat} {frame : Frame}

theorem load_eq_ahead (r : Ring) : r.load = r.ahead r.image.start := rfl

theorem ahead_lt (hplace : place < r.capacity) : r.ahead place < r.capacity := Circle.way_lt hplace

theorem ahead_eq_zero_iff (h : r.image.Opens r.capacity) (hplace : place < r.capacity) :
    r.ahead place = 0 ↔ place = r.image.stop :=
  Circle.way_eq_zero_iff hplace h.stop_lt

/-- a frame that ends at the stop offset or before it brings the walk closer by its length -/
theorem ahead_next (h : r.image.Opens r.capacity) (hplace : place < r.capacity)
    (hlength : frame.length ≤ r.ahead place) :
    r.ahead ((place + frame.length) % r.capacity) = r.ahead place - frame.length :=
  Circle.way_add_left hplace h.stop_lt hlength

/-- a frame that goes past it sends the walk round the circle once more -/
theorem ahead_next_past (h : r.image.Opens r.capacity) (hplace : place < r.capacity)
    (hframe : r.frameAt place r.image.stop = .ok frame) :
    r.ahead ((place + frame.length) % r.capacity) = (r.ahead place + r.capacity - frame.length) % r.capacity := by
  have hlength : frame.length ≤ 2 * r.ahead place := (frame_length_le h hplace h.stop_lt hframe).2.2
  have hlt : r.ahead place < r.capacity := ahead_lt hplace
  apply Circle.way_add_past hplace h.stop_lt
  simp only [ahead] at hlength hlt
  omega

/-- then the distance gets shorter only if the frame is longer than the whole circle -/
theorem ahead_next_lt_iff (h : r.image.Opens r.capacity) (hplace : place < r.capacity)
    (hframe : r.frameAt place r.image.stop = .ok frame) :
    r.ahead ((place + frame.length) % r.capacity) < r.ahead place
      ↔ frame.length ≤ r.ahead place ∨ r.capacity < frame.length := by
  obtain ⟨hpos, -, hlength⟩ := frame_length_le h hplace h.stop_lt hframe
  have hlt : r.ahead place < r.capacity := ahead_lt hplace
  rcases Nat.lt_or_ge (r.ahead place) frame.length with hpast | hwithin
  · rw [ahead_next_past h hplace hframe]
    rcases Nat.lt_or_ge r.capacity frame.length with hmore | hless
    · have hlength' : frame.length ≤ 2 * r.ahead place := hlength
      rw [Nat.mod_eq_of_lt (by omega)]
      omega
    · rcases Nat.eq_or_lt_of_le hless with heq | hlt'
      · rw [heq, Nat.add_sub_cancel, Nat.mod_eq_of_lt hlt]
        omega
      · rw [Nat.mod_eq_of_lt (by omega)]
        omega
  · rw [ahead_next h hplace hwithin]
    omega

theorem Walk.place_lt (hwalk : r.Walk more origin n place) (horigin : origin < r.capacity) : place < r.capacity := by
  cases hwalk with
  | here => exact horigin
  | next _ _ _ => exact Nat.mod_lt _ (Nat.zero_lt_of_lt horigin)

/-- the frames of a contained walk take at least a byte each -/
theorem Walk.ahead_le (h : r.image.Opens r.capacity) (horigin : origin < r.capacity)
    (hcontained : r.Contained more origin)
    (hwalk : r.Walk more origin n place) : n + r.ahead place ≤ r.ahead origin := by
  induction hwalk with
  | here => omega
  | next hwalk hmore hframe ih =>
    have hplace := hwalk.place_lt horigin
    have hpos := (frame_length_le h hplace h.stop_lt hframe).1
    have hlength := hcontained _ _ _ hwalk hmore hframe
    rw [ahead_next h hplace hlength]
    omega

/-- a walk of one frame -/
theorem contained_of_last (hframe : r.frameAt origin r.image.stop = .ok frame) (hlength : frame.length ≤ r.ahead origin)
    (hlast : ¬more ((origin + frame.length) % r.capacity)) : r.Contained more origin := by
  have hplaces : ∀ n place, r.Walk more origin n place → place = origin ∨ ¬more place := by
    intro n place hwalk
    induction hwalk with
    | here => exact Or.inl rfl
    | next _ hmore hnext ih =>
      obtain rfl := ih.resolve_right (not_not.2 hmore)
      obtain rfl := Except.ok.inj (hframe.symm.trans hnext)
      exact Or.inr hlast
  intro n place found hwalk hmore hfound
  obtain rfl := (hplaces n place hwalk).resolve_right (not_not.2 hmore)
  obtain rfl := Except.ok.inj (hframe.symm.trans hfound)
  exact hlength

/-- frames are found by the data and the capacity alone -/
theorem frameAt_congr {stop : Nat} (h : r.image.Opens r.capacity) (h' : r'.image.Opens r'.capacity)
    (hcapacity : r'.capacity = r.capacity) (hcircle : r'.image.circle = r.image.circle) (hplace : place < r.capacity)
    (hstop : stop < r.capacity) : r'.frameAt place stop = r.frameAt place stop := by
  rw [frameAt_eq h' (hcapacity ▸ hplace) (hcapacity ▸ hstop), frameAt_eq h hplace hstop, hcapacity, hcircle]

end Walk

end CircularLog.Ring
