/-
A ring file is a queue. Whatever is asked of any number of handles on it, in any order, its records are those of the
queue that is asked the same, and the answers are the queue's; in between, and also while a record is being written, the
file opens and gives its records to whoever reads them from the oldest on.

- `Session.Begins`: the ring has just been made, or a file opens whose offsets are equal.
- `Handle.Shows`: what a handle that is opened finds.
- `ring_refines_queue`: every run that begins there, and in which no two records are being written at once.
-/
import CircularLog.Proofs.Serving

namespace CircularLog

/-! ## Where a run begins -/

/-- no handle but the one that made the ring, if it was made, and no record -/
inductive Session.Begins (path : Path) (capacity : Nat) : Session → Prop
  | made {fs : FileSystem} {name : String} {s : Session} :
      Session.create { files := fs } name path capacity = (s, .ok ()) → Begins path capacity s
  | found {fs : FileSystem} {access : Access} {handle : Handle} :
      Handle.openRing fs path access = .ok handle → handle.capacity = capacity →
      (fs.image handle.node).size ≤ Image.maxSize → (fs.image handle.node).start = (fs.image handle.node).stop →
      Begins path capacity { files := fs }

/-- what a handle finds that has just been opened: nothing in front of these records, and nothing behind them -/
structure Handle.Shows (handle : Handle) (fs : FileSystem) (capacity : Nat) (records : List Bytes) : Prop where
  capacity_eq : handle.capacity = capacity
  used_eq : (handle.ring fs).used = .ok (weight records)
  used_lt : weight records < capacity
  empty_iff : (fs.image handle.node).start = (fs.image handle.node).stop ↔ records = []
  drain_eq : ∀ count, records.length < count → ((handle.ring fs).drain count).2 = (records, .exhausted)

namespace Session

section Begins

variable {fs : FileSystem} {s : Session} {path : Path} {node capacity : Nat} {q : Queue} {name : String}
  {access : Access} {handle : Handle}

/-- where the offsets are equal, there is no record, whatever the data -/
theorem holds_nil {r : Ring} (h : r.Sound) (hempty : r.image.start = r.image.stop) : r.Holds [] where
  toSound := h
  lies :=
    { weight_lt := h.pos
      stop_eq := by rw [weight_nil, Nat.add_zero, Nat.mod_eq_of_lt h.start_lt, hempty]
      framed_front := List.nil_prefix }

/-- a session that made a ring has the handle that made it, and no other -/
theorem create_ok (h : Session.create { files := fs } name path capacity = (s, .ok ())) :
    ∃ made handle, Handle.create fs path capacity = (made, .ok handle)
      ∧ s = ({ files := made } : Session).bind name handle := by
  rcases hcreate : Handle.create fs path capacity with ⟨made, stop | handle⟩
  · simp [Session.create, hcreate] at h
  · simp only [Session.create, hcreate, Prod.mk.injEq, and_true] at h
    exact ⟨made, handle, rfl, h.symm⟩

theorem reflects_create (h : Session.create { files := fs } name path capacity = (s, .ok ())) :
    ∃ node, s.Reflects path node capacity {} := by
  obtain ⟨made, handle, hcreate, rfl⟩ := create_ok h
  obtain ⟨hpos, hlookup, hnode, himage, hopens, hhandle⟩ := Handle.of_create hcreate
  have hblank : Ring.Holds { image := Image.blank capacity, capacity, cursor := 0 } [] :=
    holds_nil ⟨hopens, hpos⟩ (by rw [Image.start_blank, Image.stop_blank])
  have hring : (({ files := made } : Session).bind name handle).ringAt handle.node capacity
      = { image := Image.blank capacity, capacity, cursor := 0 } := by
    rw [← himage]
    rfl
  refine ⟨handle.node, ⟨hlookup, hnode, ?_, ?_⟩, hring ▸ hblank, rfl⟩
  · apply handles_bind (s := { files := made })
    · intro entry hentry
      cases hentry
    · rw [hhandle]
      exact ⟨rfl, rfl, rfl, hpos⟩
  · intro loan hloan
    cases hloan

theorem reflects_open (h : Handle.openRing fs path access = .ok handle)
    (hfile : (fs.image handle.node).size ≤ Image.maxSize)
    (hempty : (fs.image handle.node).start = (fs.image handle.node).stop) :
    ({ files := fs } : Session).Reflects path handle.node handle.capacity {} := by
  obtain ⟨hlookup, hopens, -⟩ := Handle.of_openRing h hfile
  have hnode := FileSystem.node_lt_of_opens hopens
  have hsound : Ring.Sound { image := fs.image handle.node, capacity := handle.capacity, cursor := 0 } :=
    ⟨hopens, hopens.pos⟩
  refine ⟨⟨hlookup, hnode, ?_, ?_⟩, holds_nil hsound hempty, rfl⟩
  · intro entry hentry
    cases hentry
  · intro loan hloan
    cases hloan

theorem Begins.reflects (h : Begins path capacity s) : ∃ node, s.Reflects path node capacity {} := by
  cases h with
  | made hcreate => exact reflects_create hcreate
  | found hopen hcapacity hfile hempty =>
    subst hcapacity
    exact ⟨_, reflects_open hopen hfile hempty⟩

/-- a handle that is opened finds the records of the queue -/
theorem Reflects.shows (h : s.Reflects path node capacity q) (access : Access) :
    ∃ handle, Handle.openRing s.files path access = .ok handle ∧ handle.Shows s.files capacity q.records := by
  obtain ⟨place, hlookup⟩ := h.lookup
  have hopens : (s.files.image node).Opens capacity := h.content.holds.toOpens
  have hholds := h.holds hopens.start_lt
  have hused := Ring.used_eq hholds.toOpens
  rw [hholds.load_eq] at hused
  obtain ⟨handle, hopen, -, hnode, hcapacity, hcursor⟩ := Handle.openRing_at hlookup hopens access
  have hring : handle.ring s.files
      = { image := s.files.image node, capacity, cursor := (s.files.image node).start } := by
    rw [Handle.ring, hnode, hcapacity, hcursor]
  have hlt : weight q.records < capacity := hholds.lies.weight_lt
  refine ⟨handle, hopen, hcapacity, ?_, hlt, ?_, ?_⟩
  · rw [hring]
    exact hused
  · rw [hnode]
    exact hholds.lies.eq_stop_iff hopens.start_lt hopens.stop_lt
  · intro count hcount
    have hdrain := hholds.drain (by simp only) hcount
    rw [hring, hdrain]

end Begins

end Session

/-! ## Every run -/

/-- **A ring is a queue.** The requests of a run are answered as the queue answers what they ask of it, and after each
of them the file opens in either mode, with the capacity that it had, and holds exactly what the queue holds. -/
theorem ring_refines_queue {path : Path} {capacity : Nat} {s : Session} (hbegins : s.Begins path capacity)
    {requests : List Session.Request} (horderly : s.Orderly path requests) :
    (s.run path requests).2.map Prod.snd
        = (Queue.run capacity {} ((s.run path requests).2.map Prod.fst)).2.map (·.reply path)
      ∧ ∀ done, done <+: requests → ∀ access, ∃ handle,
        Handle.openRing (s.run path done).1.files path access = .ok handle
        ∧ handle.Shows (s.run path done).1.files capacity
          (Queue.run capacity {} ((s.run path done).2.map Prod.fst)).1.records := by
  obtain ⟨node, hreflects⟩ := hbegins.reflects
  constructor
  · exact (hreflects.run horderly).2
  · intro done hfront
    exact (hreflects.run (horderly.front hfront)).1.shows

/-- a record, then one of four bytes in two pieces that takes its place, with a reader at work in between, and then one
that is too long -/
def smallRequests : List Session.Request :=
  [.append "a" [1, 2, 3], .openRing "b" .read, .startWrite "a" 4, .put [5, 6], .startRead "b", .take 2, .turn 1,
    .put [7, 8], .finish, .leave, .append "b" [7], .append "a" [9, 9, 9, 9, 9, 9, 9, 9]]

/-- a new ring of nine bytes -/
def smallSession : Session := (Session.create {} "a" FileSystem.singleName 9).1

theorem ring_refines_queue_smallRequests :
    smallSession.Begins FileSystem.singleName 9 ∧ smallSession.Orderly FileSystem.singleName smallRequests
      ∧ ∀ access, ∃ handle,
        Handle.openRing (smallSession.run FileSystem.singleName smallRequests).1.files FileSystem.singleName access
          = .ok handle
        ∧ handle.Shows (smallSession.run FileSystem.singleName smallRequests).1.files 9 [[5, 6, 7, 8]] := by
  have hmade : Session.create {} "a" FileSystem.singleName 9 = (smallSession, .ok ()) := by decide +kernel
  have horderly : smallSession.Orderly FileSystem.singleName smallRequests := by decide +kernel
  have hrecords : (Queue.run 9 {} ((smallSession.run FileSystem.singleName smallRequests).2.map Prod.fst)).1.records
      = [[5, 6, 7, 8]] := by decide +kernel
  have hrun := (ring_refines_queue (.made hmade) horderly).2 smallRequests (List.prefix_refl _)
  rw [hrecords] at hrun
  exact ⟨.made hmade, horderly, hrun⟩

end CircularLog
