/-
Readers that are not lapped. One handle appends, and any number of others read; where the start offset never goes past
the cursor of one that reads, each of them is in front of a record that is kept, or behind all of them, and so is always
the one that appends.

- `Handle.Lapped`: the start offset goes past the cursor; `Session.NeverLapped`: no request makes it do so.
- `way_offsetOf`: from one record to another it is as far as the frames between them are long.
- `Session.Ahead.quiet`, `Session.Ahead.asked`: every handle stays in front of what is kept.
-/
import CircularLog.Proofs.Committed

namespace CircularLog

/-! ## How far the start offset goes -/

section Way

variable {capacity first index other : Nat} {log : List Bytes}

theorem weight_take_lt (hlt : index < other) (hother : other ≤ log.length) :
    weight (log.take index) < weight (log.take other) := by
  have hparts : log.take other = log.take index ++ (log.drop index).take (other - index) := by
    rw [← List.take_add, Nat.add_sub_cancel' hlt.le]
  have hcount := length_le_weight ((log.drop index).take (other - index))
  rw [List.length_take, List.length_drop] at hcount
  rw [hparts, weight_append]
  omega

/-- from one record to another it is as far as the frames between them are long -/
theorem way_offsetOf (hweight : weight (log.drop first) < capacity) (hindex : first ≤ index) :
    weight (log.take index)
      = weight (log.take first) + Circle.way capacity (offsetOf capacity log first) (offsetOf capacity log index) := by
  have hstart : offsetOf capacity log first < capacity := Nat.mod_lt _ (Nat.zero_lt_of_lt hweight)
  have hparts : log.take index = log.take first ++ (log.drop first).take (index - first) := by
    rw [← List.take_add, Nat.add_sub_cancel' hindex]
  have hbetween : weight ((log.drop first).take (index - first)) ≤ weight (log.drop first) := by
    rw [← weight_drop (log.drop first) (index - first)]
    exact Nat.le_add_right _ _
  have hplace : offsetOf capacity log index
      = (offsetOf capacity log first + weight ((log.drop first).take (index - first))) % capacity := by
    rw [offsetOf, hparts, weight_append, offsetOf, Nat.mod_add_mod]
  rw [hplace, Circle.way_add hstart (hbetween.trans_lt hweight), hparts, weight_append]

end Way

/-- no more goes than there was before the event -/
theorem Queue.gone_step_le (capacity : Nat) (q : Queue) (log : List Bytes) (event : Event) :
    (q.step capacity event).1.gone (log ++ q.commit capacity event) ≤ log.length := by
  obtain ⟨left, -, hrecords, -⟩ := step_records capacity q event
  simp only [gone, hrecords, List.length_append]
  omega

/-- the start offset goes from one file to the other past the cursor of the handle -/
def Handle.Lapped (handle : Handle) (before after : FileSystem) : Prop :=
  Circle.way handle.capacity (before.image handle.node).start handle.cursor
    < Circle.way handle.capacity (before.image handle.node).start (after.image handle.node).start

instance (handle : Handle) (before after : FileSystem) : Decidable (handle.Lapped before after) :=
  inferInstanceAs (Decidable (_ < _))

/-- the handle is in front of a record that is kept, or behind all of them -/
def Handle.Ahead (handle : Handle) (was : Option Stream) (q : Queue) (log : List Bytes) : Prop :=
  ∃ index piece, handle.Before was log index piece ∧ q.gone log ≤ index

namespace Session

/-- the handles that only read, free or lent -/
def readers (s : Session) : List Handle :=
  (s.handles.map Prod.snd ++ s.loans.map Loan.handle).filter (·.access = .read)

/-- no request makes the start offset go past the cursor of a handle that only reads -/
def NeverLapped (path : Path) : Session → List Request → Prop
  | _, [] => True
  | s, request :: rest =>
    (∀ handle ∈ s.readers, ¬handle.Lapped s.files (s.serve path request).1.files)
      ∧ NeverLapped path (s.serve path request).1 rest

instance decidableNeverLapped (path : Path) :
    (s : Session) → (requests : List Request) → Decidable (s.NeverLapped path requests)
  | _, [] => .isTrue trivial
  | s, request :: rest =>
    have := decidableNeverLapped path (s.serve path request).1 rest
    inferInstanceAs (Decidable ((∀ handle ∈ s.readers, ¬handle.Lapped s.files (s.serve path request).1.files)
      ∧ NeverLapped path (s.serve path request).1 rest))

/-- every handle is in front of a record that is kept, or behind all of them -/
structure Ahead (s : Session) (q : Queue) (log : List Bytes) : Prop where
  free : ∀ name handle, s.find? name = some handle → handle.Ahead none q log
  lent : ∀ loan ∈ s.loans, loan.handle.Ahead (some loan.stream) q log

section Ahead

variable {s s' : Session} {path : Path} {node capacity : Nat} {owner name : String} {q q' : Queue}
  {log log' : List Bytes}
  {handle changed : Handle} {was now : Option Stream} {rest : List Loan} {request : Request} {reply : Reply Answer}
  {event : Event}

/-- a run is never lapped as far as it has come -/
theorem NeverLapped.take {requests : List Request} (h : s.NeverLapped path requests) (count : Nat) :
    s.NeverLapped path (requests.take count) := by
  induction requests generalizing s count with
  | nil => rwa [List.take_nil]
  | cons request requests ih =>
    cases count with
    | zero => trivial
    | succ count =>
      obtain ⟨hrequest, hrest⟩ := h
      exact ⟨hrequest, ih hrest count⟩

theorem mem_readers_of_find? (hfind : s.find? name = some handle) (haccess : handle.access ≠ .append) :
    handle ∈ s.readers := by
  rw [readers, List.mem_filter, List.mem_append]
  refine ⟨Or.inl (List.mem_map_of_mem (find?_mem hfind)), ?_⟩
  cases hread : handle.access with
  | read => rfl
  | append => exact absurd hread haccess

theorem mem_readers_of_loan {loan : Loan} (hloan : loan ∈ s.loans) (haccess : loan.handle.access ≠ .append) :
    loan.handle ∈ s.readers := by
  rw [readers, List.mem_filter, List.mem_append]
  refine ⟨Or.inr (List.mem_map_of_mem hloan), ?_⟩
  cases hread : loan.handle.access with
  | read => rfl
  | append => exact absurd hread haccess

theorem Logged.start_eq (h : s.Logged path node capacity q log) :
    (s.files.image node).start = offsetOf capacity log (q.gone log) := by
  have hlies := (h.holds h.opens.pos).lies
  rw [← Queue.drop_gone h.suffix] at hlies
  exact h.marks.eq_offsetOf hlies h.opens.start_lt

/-- a handle at the start offset -/
theorem Logged.ahead_of_start (h : s.Logged path node capacity q log) (hhandle : handle.At path node capacity)
    (hcursor : handle.cursor = (s.files.image node).start) : handle.Ahead none q log := by
  refine ⟨q.gone log, [], ⟨Nat.sub_le _ _, ?_, by simp⟩, le_rfl⟩
  rw [hcursor, hhandle.capacity_eq, h.start_eq]

/-- what the ring has no more is behind the cursor, unless the handle is lapped -/
theorem Logged.ahead_of_not_lapped (h : s.Logged path node capacity q log)
    (hnext : s'.Logged path node capacity (q.step capacity event).1 (log ++ q.commit capacity event))
    (hhandle : handle.At path node capacity) (hahead : handle.Ahead was q log)
    (hlapped : ¬handle.Lapped s.files s'.files) :
    handle.Ahead was (q.step capacity event).1 (log ++ q.commit capacity event) := by
  obtain ⟨index, piece, hbefore, hgone⟩ := hahead
  refine ⟨index, piece, hbefore.more _, ?_⟩
  have hlast := Queue.gone_step_le capacity q log event
  have hgrows : q.gone log ≤ (q.step capacity event).1.gone (log ++ q.commit capacity event) :=
    (Queue.gone_step h.suffix event).1
  have hstart := hnext.start_eq
  have hcursor := hbefore.cursor_eq
  generalize (q.step capacity event).1.gone (log ++ q.commit capacity event) = gone at *
  have hweight : weight (log.drop (q.gone log)) < capacity := by
    rw [Queue.drop_gone h.suffix]
    exact (h.holds h.opens.pos).lies.weight_lt
  rw [offsetOf_append _ hlast] at hstart
  rw [Handle.Lapped, hhandle.node_eq, hhandle.capacity_eq, h.start_eq, hstart] at hlapped
  rw [hhandle.capacity_eq] at hcursor
  rw [hcursor] at hlapped
  -- the more records lie in between, the further it is, so the oldest that is kept is not behind the cursor's
  have hfar := way_offsetOf hweight hgone
  have hnear := way_offsetOf hweight hgrows
  by_contra hpast
  have hless := weight_take_lt (Nat.lt_of_not_le hpast) hlast
  omega

namespace Ahead

theorem of_owner (h : s.Ahead q log) (howner : s.Owner name handle was rest) : handle.Ahead was q log := by
  cases howner with
  | free hfind => exact h.free name handle hfind
  | lent hloans => exact h.lent _ (hloans ▸ List.mem_cons_self)

/-- a handle has acted, and the others are still in front of what is kept -/
theorem settles (hsettles : s.Settles s' name changed was now rest) (hchanged : changed.Ahead now q log)
    (hfree : ∀ other found, s.find? other = some found → (other = name → was ≠ none) → found.Ahead none q log)
    (hlent : ∀ loan ∈ rest, loan.handle.Ahead (some loan.stream) q log) : s'.Ahead q log where
  free other found hfind := by
    by_cases hother : other = name
    · subst hother
      have hself := hsettles.self
      rw [hfind] at hself
      cases now with
      | none =>
        obtain rfl := Option.some.inj hself
        exact hchanged
      | some stream =>
        by_cases hwas : was = none
        · simp only [if_pos hwas] at hself
          cases hself
        · simp only [if_neg hwas] at hself
          exact hfree other found hself.symm fun _ => hwas
    · rw [hsettles.others other hother] at hfind
      exact hfree other found hfind (absurd · hother)
  lent loan hloan := by
    rcases hsettles.mem_loans hloan with ⟨stream, rfl, rfl⟩ | hrest
    · exact hchanged
    · exact hlent loan hrest

/-- what asks nothing of the queue leaves the handle that acts in front of what is kept -/
theorem acted (hlogged : s.Logged path node capacity q log) (h : s.Ahead q log) (howner : s.Owner name handle was rest)
    {next : Ring} {result : Outcome Answer} (hact : request.act (handle.ring s.files) was = some (next, now, result))
    (hname : was = none → request.name? = some name) (haccess : request.begins → handle.access = .append)
    (hevent : request.event? s = none) (hnext : s'.Logged path node capacity q log) (hfiles : s'.files = s.files)
    (hchanged : ({ handle with cursor := next.cursor } : Handle).At path node capacity) :
    ({ handle with cursor := next.cursor } : Handle).Ahead now q log := by
  obtain ⟨hbegins, hwas⟩ := reads_of_event howner hact hname haccess hevent
  obtain ⟨hhandle, -⟩ := howner.based hlogged.toBased
  obtain ⟨index, piece, hbefore, hgone⟩ := h.of_owner howner
  have hstood : (handle.ring s.files).Stands was (log.drop index) ({ piece } : Heard).piece :=
    hbefore.stands hlogged hhandle hgone
  obtain ⟨rest', hstands, hmoved⟩ := hstood.act (hlogged.ring_holds hhandle) hbegins hwas hact path
  rw [← hlogged.toInRange.ring_of_quiet howner hact hbegins hwas hfiles] at hstands
  cases hmoved with
  | stayed => exact ⟨index, _, .of_stands hnext hchanged hbefore.index_le hstands, hgone⟩
  | passed hdrop =>
    obtain ⟨hindex, -, rfl⟩ := drop_eq_cons hdrop
    exact ⟨index + 1, _, .of_stands hnext hchanged hindex hstands, Nat.le_succ_of_le hgone⟩
  | rewound =>
    rw [← Queue.drop_gone hlogged.suffix] at hstands
    exact ⟨q.gone log, _, .of_stands hnext hchanged (Nat.sub_le _ _) hstands, le_rfl⟩

theorem quiet (h : s.Ahead q log) (hlogged : s.Logged path node capacity q log)
    (heffect : Effect path s request s' reply)
    (hnext : s'.Logged path node capacity q log) (hevent : request.event? s = none) : s'.Ahead q log := by
  obtain ⟨hfiles, -⟩ := heffect.quiet hlogged.toInRange hevent ""
  cases heffect with
  | @opened name access handle hopen =>
    obtain ⟨place, hlookup⟩ := hlogged.lookup
    cases hopen.symm.trans (Handle.openRing_eq_ok hlookup hlogged.opens access)
    have hfound := find?_bind_self s name { path, node, access, capacity, cursor := (s.files.image node).start }
    refine ⟨fun other found hfind => ?_, h.lent⟩
    by_cases hother : other = name
    · subst hother
      cases hfound.symm.trans hfind
      exact hlogged.ahead_of_start (hnext.toReflects.find? hfound) rfl
    · rw [find?_bind_of_ne s _ hother] at hfind
      exact h.free other found hfind
  | @closed name handle hfind =>
    refine ⟨fun other found hfound => ?_, h.lent⟩
    by_cases hother : other = name
    · subst hother
      cases (find?_release_self s other).symm.trans hfound
    · rw [find?_release_of_ne s hother] at hfound
      exact h.free other found hfound
  | @turned index loan hloan =>
    refine ⟨h.free, List.forall_mem_cons.2 ⟨h.lent loan (List.mem_of_getElem? hloan), ?_⟩⟩
    intro other hother
    exact h.lent other (List.mem_of_mem_eraseIdx hother)
  | @acted _ name handle was now rest next result _ howner hact _ hsettles hname haccess =>
    obtain ⟨-, hrest⟩ := howner.based hlogged.toBased
    have hchanged := hlogged.toInRange.at_next howner hact
    have hahead := acted hlogged h howner hact hname haccess hevent hnext hfiles hchanged
    exact settles hsettles hahead (fun other found hfind _ => h.free other found hfind) fun loan hloan =>
      h.lent loan (hrest loan hloan)
  | _ => exact h

/-- what asks something of the queue is for the handle that appends, and no other is lapped -/
theorem asked (h : s.Ahead q log) (hlogged : s.Logged path node capacity q log) (hsingle : s.Single owner)
    (heffect : Effect path s request s' reply) (hguest : request.guest owner) (hevent : request.event? s = some event)
    (hnext : s'.Logged path node capacity (q.step capacity event).1 (log ++ q.commit capacity event))
    (hlapped : ∀ handle ∈ s.readers, ¬handle.Lapped s.files s'.files) :
    s'.Ahead (q.step capacity event).1 (log ++ q.commit capacity event) := by
  have hasks := asks_of_event hevent
  have hkeeps : request.keeps owner := by cases hasks <;> rfl
  have hserved := hsingle.effect hlogged.toInRange heffect hguest
  obtain ⟨lent, haddressee⟩ := hsingle.addressee_eq hasks
  have hall := heffect
  cases heffect with
  | unknown hnone | reader _ hnone | idle _ hnone => cases hevent.symm.trans hnone
  | opened | unopened | closed | turned => cases hevent
  | @acted _ name handle was now rest next result _ howner hact hfiles hsettles hname haccess =>
    cases haddressee.symm.trans (howner.addressee_eq hact hname)
    rcases hsingle.sole with ⟨found, stream, hhas⟩ | hlacks
    · obtain ⟨rfl, rfl⟩ := hhas.owner_eq howner
      obtain ⟨index, piece, hbefore, hgone⟩ := h.of_owner howner
      have htracks : s.Tracks path node capacity owner q log owner { piece } handle lent index :=
        ⟨hlogged, hsingle, hhas, hbefore⟩
      obtain ⟨-, hrest⟩ := howner.based hlogged.toBased
      cases htracks.asked hall hnext hserved hkeeps hgone hevent with
      | reached hreached _ hkept =>
        obtain ⟨rfl, rfl⟩ := hreached.has.eq (hhas.settles howner hsettles)
        have happends := hsingle.appends hasks howner hact haccess
        -- the handle that appends drops no record it is in front of; of the others we know that they are not lapped
        refine settles hsettles ⟨_, _, hreached.before, hkept happends⟩ ?_ ?_
        · intro other found hfind hother
          have hreads : found.access ≠ .append := by
            intro happend
            obtain rfl : other = owner := hsingle.free _ (find?_mem hfind) happend
            obtain ⟨-, hfree⟩ := hhas.owner_eq (.free hfind)
            exact hother rfl hfree.symm
          exact hlogged.ahead_of_not_lapped hnext (hlogged.toReflects.find? hfind) (h.free other found hfind)
            (hlapped found (mem_readers_of_find? hfind hreads))
        · intro loan hloan
          have hmem := hrest loan hloan
          have hreads : loan.handle.access ≠ .append := by
            intro happend
            have hnone := hhas.rest_eq howner
            exact List.filter_eq_nil_iff.1 hnone loan hloan (by simpa using hsingle.lent loan hmem happend)
          exact hlogged.ahead_of_not_lapped hnext (hlogged.toBased.loans loan hmem) (h.lent loan hmem)
            (hlapped loan.handle (mem_readers_of_loan hmem hreads))
    · exact absurd howner hlacks.no_owner

end Ahead

end Ahead

end Session

end CircularLog
