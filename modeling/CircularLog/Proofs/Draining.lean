/-
Reading one record after another, from any cursor. `Ring.Drains` is what is wanted: every read brings the cursor closer
to the stop offset, and so the reads come to an end.

- `Ring.Reads.walk`, `Ring.Walk.reads`: the reads are a walk over the data that stops only at the stop offset.
- `Ring.drains_iff`: the reads do what is wanted of them exactly if no frame of the walk keeps the cursor from coming
  closer; a frame that steps past the stop offset does, unless it is longer than the circle.
- `Ring.print_answers`: printing all records ends, if reading them does.
- `draining_ends_iff`: both for every file that opens.
- `draining_cycle`: a file that opens, on which the reads go round for ever.
-/
import CircularLog.Command
import CircularLog.Proofs.Eviction

namespace CircularLog

namespace Ring

inductive Reads (r : Ring) : Nat → Ring → Prop
  | none : Reads r 0 r
  | more {n : Nat} {r₁ r₂ : Ring} {payload : Bytes} : Reads r n r₁ → r₁.record = .ok (r₂, some payload) →
      Reads r (n + 1) r₂

/-- reading one record after another comes to an end -/
structure Drains (r : Ring) : Prop where
  nearer : ∀ n r₁ r₂ payload, Reads r n r₁ → r₁.record = .ok (r₂, some payload) →
    ∃ far near, Circle.distance r.capacity r₁.cursor r.image.stop = .ok far
      ∧ Circle.distance r.capacity r₂.cursor r.image.stop = .ok near ∧ near < far
  few : ∀ n r₁, Reads r n r₁ → n ≤ r.capacity - 1
  /-- after some reads there is no further record, or an error -/
  ends : ∃ n r₁, Reads r n r₁ ∧ (r₁.record = .ok (r₁, none) ∨ ∃ refusal, r₁.record = .error (.refused refusal))

/-- the cursor is not at the stop offset -/
def Unread (r : Ring) (place : Nat) : Prop := place ≠ r.image.stop

instance (r : Ring) (place : Nat) : Decidable (r.Unread place) := inferInstanceAs (Decidable (place ≠ r.image.stop))

/-- no frame of the walk steps past the stop offset, unless it is longer than the circle -/
def Nearing (r : Ring) : Prop :=
  ∀ n place frame, r.Walk r.Unread r.cursor n place → r.Unread place → r.frameAt place r.image.stop = .ok frame →
    frame.length ≤ r.ahead place ∨ r.capacity < frame.length

/-- the ring with the cursor at the place -/
def seek (r : Ring) (place : Nat) : Ring := { r with cursor := place }

section Reads

variable {r r₁ r₂ : Ring} {n place : Nat} {frame : Frame} {payload : Bytes}

theorem Sound.seek (h : r.Sound) (hplace : place < r.capacity) : (r.seek place).Sound := ⟨h.toOpens, hplace⟩

theorem record_ok_iff (h : r.Sound) :
    r.record = .ok (r₁, some payload)
      ↔ r.cursor ≠ r.image.stop ∧ ∃ frame, r.frameAt r.cursor r.image.stop = .ok frame ∧ r₁ = r.pass frame
        ∧ payload = (r.image.circle.rotate (r.cursor + frame.header)).take frame.payload := by
  rw [record_eq h]
  by_cases hend : r.cursor = r.image.stop
  · simp [hend]
  · rw [if_neg hend]
    cases hframe : r.frameAt r.cursor r.image.stop with
    | error stop => simp
    | ok frame =>
      constructor
      · intro hok
        obtain ⟨rfl, rfl⟩ : r.pass frame = r₁ ∧ _ = payload := by simpa using hok
        exact ⟨hend, frame, rfl, rfl, rfl⟩
      · rintro ⟨-, found, hfound, rfl, rfl⟩
        obtain rfl := Except.ok.inj hfound
        rfl

theorem seek_pass (r : Ring) (place : Nat) (frame : Frame) :
    (r.seek place).pass frame = r.seek ((place + frame.length) % r.capacity) := rfl

theorem Reads.walk (h : r.Sound) (hreads : r.Reads n r₁) :
    r₁ = r.seek r₁.cursor ∧ r.Walk r.Unread r.cursor n r₁.cursor := by
  induction hreads with
  | none => exact ⟨rfl, Walk.here⟩
  | @more n r₁ r₂ payload _ hrecord ih =>
    obtain ⟨hseek, hwalk⟩ := ih
    have hsound : r₁.Sound := hseek ▸ h.seek (hwalk.place_lt h.cursor_lt)
    obtain ⟨hunread, frame, hframe, rfl, -⟩ := (record_ok_iff hsound).1 hrecord
    rw [hseek] at hunread hframe ⊢
    exact ⟨rfl, hwalk.next hunread hframe⟩

theorem Walk.reads (h : r.Sound) (hwalk : r.Walk r.Unread r.cursor n place) : r.Reads n (r.seek place) := by
  induction hwalk with
  | here => exact Reads.none
  | next hwalk hunread hframe ih =>
    have hsound := h.seek (hwalk.place_lt h.cursor_lt)
    exact ih.more ((record_ok_iff hsound).2 ⟨hunread, _, hframe, rfl, rfl⟩)

/-- on such a walk every step brings the cursor closer -/
theorem Nearing.ahead_next_lt (h : r.Sound) (hnearing : r.Nearing) (hwalk : r.Walk r.Unread r.cursor n place)
    (hunread : r.Unread place) (hframe : r.frameAt place r.image.stop = .ok frame) :
    r.ahead ((place + frame.length) % r.capacity) < r.ahead place :=
  (ahead_next_lt_iff h.toOpens (hwalk.place_lt h.cursor_lt) hframe).2 (hnearing _ _ _ hwalk hunread hframe)

/-- and so there are no more steps than it was bytes away -/
theorem Nearing.ahead_le (h : r.Sound) (hnearing : r.Nearing) (hwalk : r.Walk r.Unread r.cursor n place) :
    n + r.ahead place ≤ r.ahead r.cursor := by
  induction hwalk with
  | here => omega
  | next hwalk hunread hframe ih =>
    have hnear := hnearing.ahead_next_lt h hwalk hunread hframe
    omega

/-- what a record comes to: none, a refusal, or a step of the walk -/
theorem record_cases (h : r.Sound) :
    r.record = .ok (r, none) ∨ (∃ refusal, r.record = .error (.refused refusal))
      ∨ ∃ frame payload, r.Unread r.cursor ∧ r.frameAt r.cursor r.image.stop = .ok frame
        ∧ r.record = .ok (r.pass frame, some payload) := by
  rw [record_eq h]
  by_cases hend : r.cursor = r.image.stop
  · exact Or.inl (if_pos hend)
  · rw [if_neg hend]
    cases hframe : r.frameAt r.cursor r.image.stop with
    | error stop =>
      cases stop with
      | refused refusal => exact Or.inr (Or.inl ⟨refusal, rfl⟩)
      | fault fault => exact absurd hframe (frameAt_answers h.toOpens h.cursor_lt h.stop_lt fault)
    | ok frame => exact Or.inr (Or.inr ⟨frame, _, hend, rfl, rfl⟩)

theorem Nearing.ends (h : r.Sound) (hnearing : r.Nearing) (hwalk : r.Walk r.Unread r.cursor n place) :
    ∃ m r₁, Reads r m r₁ ∧ (r₁.record = .ok (r₁, none) ∨ ∃ refusal, r₁.record = .error (.refused refusal)) := by
  induction hdistance : r.ahead place using Nat.strong_induction_on generalizing n place with
  | _ distance ih =>
    have hplace := hwalk.place_lt h.cursor_lt
    rcases record_cases (h.seek hplace) with hnone | hrefused | ⟨frame, payload, hunread, hframe, -⟩
    · exact ⟨n, _, hwalk.reads h, Or.inl hnone⟩
    · exact ⟨n, _, hwalk.reads h, Or.inr hrefused⟩
    · have hnear := hnearing.ahead_next_lt h hwalk hunread hframe
      exact ih _ (hdistance ▸ hnear) (hwalk.next hunread hframe) rfl

theorem drains_iff (h : r.Sound) : r.Drains ↔ r.Nearing := by
  constructor
  · intro hdrains n place frame hwalk hunread hframe
    have hplace := hwalk.place_lt h.cursor_lt
    have hrecord := (record_ok_iff (h.seek hplace)).2 ⟨hunread, frame, hframe, rfl, rfl⟩
    obtain ⟨far, near, hfar, hnear, hlt⟩ := hdrains.nearer n _ _ _ (hwalk.reads h) hrecord
    rw [seek_pass] at hnear
    rw [seek, Circle.distance_eq_way hplace h.stop_lt] at hfar
    rw [seek, Circle.distance_eq_way (Nat.mod_lt _ h.pos) h.stop_lt] at hnear
    apply (ahead_next_lt_iff h.toOpens hplace hframe).1
    rw [ahead, ahead, Except.ok.inj hfar, Except.ok.inj hnear]
    exact hlt
  · intro hnearing
    refine ⟨?_, ?_, hnearing.ends h Walk.here⟩
    · intro n r₁ r₂ payload hreads hrecord
      obtain ⟨hseek, hwalk⟩ := hreads.walk h
      have hplace := hwalk.place_lt h.cursor_lt
      have hsound : r₁.Sound := hseek ▸ h.seek hplace
      obtain ⟨hunread, frame, hframe, rfl, -⟩ := (record_ok_iff hsound).1 hrecord
      rw [hseek] at hunread hframe
      have hnear := hnearing.ahead_next_lt h hwalk hunread hframe
      refine ⟨_, _, Circle.distance_eq_way hplace h.stop_lt, ?_, hnear⟩
      rw [hseek, seek_pass, seek]
      exact Circle.distance_eq_way (Nat.mod_lt _ h.pos) h.stop_lt
    · intro n r₁ hreads
      have hle := hnearing.ahead_le h (hreads.walk h).2
      have hlt := ahead_lt (r := r) h.cursor_lt
      omega

end Reads

end Ring

/-! ## Printing all records -/

namespace Command

-- without this the two sides are compared by reading the record
attribute [local irreducible] Ring.record in
theorem printWithin_succ (fuel : Nat) (r : Ring) (sink : Sink) :
    printWithin (fuel + 1) r sink
      = match r.record with
        | .error stop => (sink, .error stop)
        | .ok (_, none) => sink.flush
        | .ok (r, some payload) =>
          match writeLine sink payload with
          | (sink, .error stop) => (sink, .error stop)
          | (sink, .ok ()) => printWithin fuel r sink := by
  rfl

theorem answers_flush (sink : Sink) : Outcome.Answers sink.flush.2 := by
  intro fault
  unfold Sink.flush
  split <;> simp [refuse]

theorem answers_write (sink : Sink) (data : Bytes) : Outcome.Answers (sink.write data).2 := by
  intro fault
  unfold Sink.write
  split
  · simp
  · simp only
    split <;> simp [refuse]

theorem answers_writeLine (sink : Sink) (record : Bytes) : Outcome.Answers (writeLine sink record).2 := by
  have hrecord := answers_write sink record
  unfold writeLine
  rcases hwrite : sink.write record with ⟨filled, stop | ⟨⟩⟩
  · rwa [hwrite] at hrecord
  · exact answers_write filled [lineBreak]

theorem printWithin_answers {r : Ring} {n place fuel : Nat} (h : r.Sound) (hnearing : r.Nearing)
    (hwalk : r.Walk r.Unread r.cursor n place) (hfuel : r.ahead place < fuel) (sink : Sink) :
    Outcome.Answers (printWithin fuel (r.seek place) sink).2 := by
  induction fuel generalizing n place sink with
  | zero => omega
  | succ fuel ih =>
    have hplace := hwalk.place_lt h.cursor_lt
    rw [printWithin_succ]
    rcases Ring.record_cases (h.seek hplace) with
      hnone | ⟨refusal, hrefused⟩ | ⟨frame, payload, hunread, hframe, hrecord⟩
    · rw [hnone]
      exact answers_flush sink
    · rw [hrefused]
      intro fault
      simp
    · have hwritten := answers_writeLine sink payload
      simp only [hrecord]
      rcases hwrite : writeLine sink payload with ⟨sink', result⟩
      rw [hwrite] at hwritten
      cases result with
      | error stop =>
        intro fault
        simpa using hwritten fault
      | ok _ =>
        have hnear := hnearing.ahead_next_lt h hwalk hunread hframe
        exact ih (hwalk.next hunread hframe) (by omega) sink'

theorem print_answers {r : Ring} (h : r.Sound) (hnearing : r.Nearing) (sink : Sink) :
    Outcome.Answers (print r sink).2 := by
  have hlt : r.ahead r.cursor < r.capacity + sink.limit.elim 0 Prod.fst + 2 := by
    have := Ring.ahead_lt (r := r) h.cursor_lt
    omega
  exact printWithin_answers h hnearing Ring.Walk.here hlt sink

end Command

/-! ## Files that open -/

/-- on a file that opens, with whatever data, reading from a cursor comes to an end as it should exactly if no frame
that is met on the way steps past the stop offset; then all of the records can be printed -/
theorem draining_ends_iff {fs : FileSystem} {handle : Handle} (command : Command)
    (hopen : Handle.openRing fs command.path .read = .ok handle)
    (hfile : (fs.image handle.node).size ≤ Image.maxSize) :
    (∀ cursor, cursor < handle.capacity →
      ((Handle.ring { handle with cursor } fs).Drains ↔ (Handle.ring { handle with cursor } fs).Nearing))
      ∧ ((handle.ring fs).Drains → ∀ sink, Outcome.Answers (command.runRead fs sink).2) := by
  obtain ⟨-, hopens, hhandle⟩ := Handle.of_openRing hopen hfile
  constructor
  · intro cursor hcursor
    have hsound : (Handle.ring { handle with cursor } fs).Sound := ⟨hopens, hcursor⟩
    exact Ring.drains_iff hsound
  · intro hdrains sink
    have hcursor : handle.cursor < handle.capacity := by
      rw [hhandle]
      exact hopens.start_lt
    have hsound := Handle.sound_ring hopens hcursor
    have hprint := Command.print_answers hsound ((Ring.drains_iff hsound).1 hdrains) sink
    simp only [Command.runRead, hopen]
    exact hprint

/-- a record of two bytes -/
def plainFile : FileSystem := .single 0 3 [0x02, 0xAA, 0xBB, 0xFF, 0xFF]

/-- the same behind a prefix of two bytes, one of which is not needed -/
def cycleFile : FileSystem := .single 0 3 [0x82, 0x00, 0xAA, 0xBB, 0x00]

/-- the handle that either file is opened with -/
def plainHandle : Handle := { path := FileSystem.singleName, node := 0, access := .read, capacity := 5, cursor := 0 }

theorem draining_ends_plainFile :
    Handle.openRing plainFile FileSystem.singleName .read = .ok plainHandle
      ∧ (plainFile.image plainHandle.node).size ≤ Image.maxSize
      ∧ (plainHandle.ring plainFile).Drains
      ∧ ∀ sink,
        Outcome.Answers (Command.runRead { mode := .read, path := FileSystem.singleName } plainFile sink).2 := by
  have hopen : Handle.openRing plainFile FileSystem.singleName .read = .ok plainHandle := by decide
  have hfile : (plainFile.image plainHandle.node).size ≤ Image.maxSize := by decide
  obtain ⟨hdrains, hprint⟩ :=
    draining_ends_iff { mode := .read, path := FileSystem.singleName } hopen hfile
  have hframe : (plainHandle.ring plainFile).frameAt 0 (plainHandle.ring plainFile).image.stop = .ok ⟨0, 1, 2⟩ := by
    decide
  have hcontained : (plainHandle.ring plainFile).Contained (plainHandle.ring plainFile).Unread 0 :=
    Ring.contained_of_last hframe (by decide) (by decide)
  have hnearing : (plainHandle.ring plainFile).Nearing := by
    intro n place frame hwalk hunread hframe
    exact Or.inl (hcontained n place frame hwalk hunread hframe)
  have hends : (plainHandle.ring plainFile).Drains := (hdrains 0 (by decide)).2 hnearing
  exact ⟨hopen, hfile, hends, hprint hends⟩

/-- the cursor goes from 0 past the stop offset at 3 to 4, and from there with an empty record back to 0 -/
theorem draining_cycle :
    ∃ handle, Handle.openRing cycleFile FileSystem.singleName .read = .ok handle
      ∧ (cycleFile.image handle.node).size ≤ Image.maxSize ∧ ¬(handle.ring cycleFile).Drains
      ∧ (∀ n, ∃ r, (handle.ring cycleFile).Reads n r)
      ∧ (Command.runRead { mode := .read, path := FileSystem.singleName } cycleFile {}).2
        = .error (.fault .endless) := by
  have hthere : (plainHandle.ring cycleFile).record
      = .ok ((plainHandle.ring cycleFile).seek 4, some [0xAA, 0xBB]) := by decide
  have hback : ((plainHandle.ring cycleFile).seek 4).record = .ok (plainHandle.ring cycleFile, some []) := by decide
  refine ⟨plainHandle, by decide, by decide, ?_, ?_, by decide +kernel⟩
  · intro hdrains
    obtain ⟨far, near, hfar, hnear, hlt⟩ := hdrains.nearer 0 _ _ _ Ring.Reads.none hthere
    obtain rfl : 3 = far := Except.ok.inj hfar
    obtain rfl : 4 = near := Except.ok.inj hnear
    omega
  · intro n
    have hround : ∃ r, (plainHandle.ring cycleFile).Reads n r
        ∧ (r = plainHandle.ring cycleFile ∨ r = (plainHandle.ring cycleFile).seek 4) := by
      induction n with
      | zero => exact ⟨_, Ring.Reads.none, Or.inl rfl⟩
      | succ n ih =>
        obtain ⟨r, hreads, rfl | rfl⟩ := ih
        · exact ⟨_, hreads.more hthere, Or.inr rfl⟩
        · exact ⟨_, hreads.more hback, Or.inl rfl⟩
    obtain ⟨r, hreads, -⟩ := hround
    exact ⟨r, hreads⟩

end CircularLog
