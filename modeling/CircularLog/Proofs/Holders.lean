/-
Who has which handle. As long as none is opened under a name that is in use, there is one handle under it at most, free
or lent; and a request acts on the ring of that handle, or it passes the handle by.

- `Session.Has`: the handle under a name, and the record in pieces that it is lent to, if it is lent.
- `Session.hear`: what is read under a name, request by request.
- `Session.Effect.meets`: what a request does to the handle under a name.
- `Session.Single`: one handle appends, and the others only read; `Session.Single.effect`: so it stays.
-/
import CircularLog.Proofs.Following

namespace CircularLog.Session

/-! ## The handle under a name -/

/-- the one handle under this name, free, or lent to this record in pieces -/
structure Has (s : Session) (name : String) (handle : Handle) (was : Option Stream) : Prop where
  find : s.find? name = match was with
    | none => some handle
    | some _ => none
  loans : s.loans.filter (·.name == name) = was.toList.map fun stream => { name, handle, stream }

/-- nothing is under this name -/
structure Lacks (s : Session) (name : String) : Prop where
  find : s.find? name = none
  loans : s.loans.filter (·.name == name) = []

/-- a request that neither opens a handle under this name nor closes it -/
def Request.keeps (name : String) : Request → Bool
  | .openRing other _ | .close other => other != name
  | _ => true

/-- the name of the handle that a request is for, and the record in pieces that the handle is lent to: it is free if it
is asked for by its name, and is the latest one that is lent out if not -/
def addressee (s : Session) (request : Request) : Option (String × Option Stream) :=
  match request.name? with
  | some name => some (name, none)
  | none => s.loans.head?.map fun loan => (loan.name, some loan.stream)

/-- what has been read under this name, after a request that was answered so -/
def hear (s : Session) (name : String) (heard : Heard) (request : Request) (reply : Reply Answer) : Heard :=
  match s.addressee request with
  | some (other, was) => if other = name then heard.hear was request reply else heard
  | none => heard

/-- what has been read under this name, after the requests -/
def hearAll (path : Path) (name : String) : Session → Heard → List Request → Heard
  | _, heard, [] => heard
  | s, heard, request :: rest =>
    hearAll path name (s.serve path request).1 (s.hear name heard request (s.answer path request)) rest

section Has

variable {s s' : Session} {path : Path} {node capacity : Nat} {name other : String} {handle changed : Handle}
  {was now : Option Stream} {rest : List Loan} {request : Request} {reply : Reply Answer}

theorem hear_error (heard : Heard) (was : Option Stream) (request : Request) (denial : Denial) :
    heard.hear was request (.error denial) = heard := by
  cases request <;> rfl

/-- an answer that tells nothing -/
theorem hear_of_silent (heard : Heard) (h : ∀ was, heard.hear was request reply = heard) :
    s.hear name heard request reply = heard := by
  unfold hear
  split
  · split
    · exact h _
    · rfl
  · rfl

/-- an answer to a request for this handle or another one -/
theorem hear_of_addressee (heard : Heard) (reply : Reply Answer) (h : s.addressee request = some (other, was)) :
    s.hear name heard request reply = if other = name then heard.hear was request reply else heard := by
  rw [hear, h]

namespace Has

/-- whoever asks under the name asks this handle -/
theorem owner_eq (h : s.Has name handle was) {found : Handle} {stream : Option Stream}
    (howner : s.Owner name found stream rest) :
    found = handle ∧ stream = was := by
  cases howner with
  | free hfind =>
    have hhas := h.find
    cases was with
    | none => exact ⟨Option.some.inj (hfind.symm.trans hhas), rfl⟩
    | some stream => cases hfind.symm.trans hhas
  | @lent stream _ hloans =>
    have hhas := h.loans
    rw [hloans, List.filter_cons_of_pos (by simp)] at hhas
    cases was with
    | none => cases hhas
    | some stream =>
      cases (List.cons.inj hhas).1
      exact ⟨rfl, rfl⟩

/-- beside the handle that a request is for, nothing is under its name -/
theorem rest_eq (h : s.Has name handle was) (howner : s.Owner name handle was rest) :
    rest.filter (·.name == name) = [] := by
  have hhas := h.loans
  cases howner with
  | free hfind => exact hhas
  | lent hloans =>
    rw [hloans, List.filter_cons_of_pos (by simp)] at hhas
    exact (List.cons.inj hhas).2

/-- the handle has been changed, lent or given back -/
theorem settles (h : s.Has name handle was) (howner : s.Owner name handle was rest)
    (hsettles : s.Settles s' name changed was now rest) : s'.Has name changed now where
  find := by
    rw [hsettles.self]
    cases now with
    | none => rfl
    | some stream =>
      have hfind := h.find
      cases was with
      | none => rfl
      | some _ => exact hfind
  loans := by
    have hrest := h.rest_eq howner
    rw [hsettles.loans]
    cases now with
    | none => exact hrest
    | some stream =>
      rw [List.filter_cons_of_pos (by simp), hrest]
      rfl

theorem perm (h : s.Has name handle was) (hfind : s'.find? name = s.find? name)
    (hloans : (s'.loans.filter (·.name == name)).Perm (s.loans.filter (·.name == name))) : s'.Has name handle was where
  find := hfind.trans h.find
  loans := by
    rw [h.loans] at hloans
    cases was with
    | none => exact hloans.eq_nil
    | some stream => exact List.perm_singleton.1 hloans

end Has

/-- there is one handle under the name -/
theorem Has.eq {found : Handle} (h : s.Has name handle was) (h' : s.Has name found now) :
    handle = found ∧ was = now := by
  have hfind := h.find.symm.trans h'.find
  have hloans := h.loans.symm.trans h'.loans
  cases was <;> cases now <;> simp_all

/-- the handle is among the free ones or among those that are lent -/
theorem Has.mem (h : s.Has name handle was) :
    (name, handle) ∈ s.handles ∨ ∃ stream, was = some stream ∧ { name, handle, stream } ∈ s.loans := by
  cases was with
  | none => exact Or.inl (find?_mem h.find)
  | some stream =>
    have hmem : { name, handle, stream } ∈ s.loans.filter (·.name == name) := h.loans ▸ List.mem_singleton_self _
    exact Or.inr ⟨stream, rfl, (List.mem_filter.1 hmem).1⟩

theorem Has.based (h : s.Has name handle was) (hbased : s.Based path node capacity) : handle.At path node capacity := by
  rcases h.mem with hfree | ⟨stream, -, hlent⟩
  · exact hbased.handles _ hfree
  · exact hbased.loans _ hlent

theorem Lacks.perm (h : s.Lacks name) (hfind : s'.find? name = s.find? name)
    (hloans : (s'.loans.filter (·.name == name)).Perm (s.loans.filter (·.name == name))) : s'.Lacks name where
  find := hfind.trans h.find
  loans := by
    rw [h.loans] at hloans
    exact hloans.eq_nil

theorem Lacks.no_owner (h : s.Lacks name) : ¬s.Owner name handle was rest := by
  intro howner
  cases howner with
  | free hfind => cases h.find.symm.trans hfind
  | lent hloans =>
    have hnone := h.loans
    rw [hloans, List.filter_cons_of_pos (by simp)] at hnone
    cases hnone

/-- a handle that has been changed is not under another name -/
theorem Settles.elsewhere (howner : s.Owner other handle was rest) (hsettles : s.Settles s' other changed was now rest)
    (hne : other ≠ name) : s'.loans.filter (·.name == name) = s.loans.filter (·.name == name) := by
  have hbefore : s.loans.filter (·.name == name) = rest.filter (·.name == name) := by
    cases howner with
    | free hfind => rfl
    | lent hloans => rw [hloans, List.filter_cons_of_neg (by simpa using hne)]
  rw [hsettles.loans, hbefore]
  cases now with
  | none => rfl
  | some stream => rw [List.filter_cons_of_neg (by simpa using hne)]

theorem addressee_of_lent {stream : Stream} (hloans : s.loans = { name, handle, stream } :: rest)
    (hunnamed : request.name? = none) : s.addressee request = some (name, some stream) := by
  rw [addressee, hunnamed, hloans]
  rfl

/-- the owner of the ring that a request acts on is the handle that the request is for -/
theorem Owner.addressee_eq {r next : Ring} {result : Outcome Answer} (howner : s.Owner name handle was rest)
    (hact : request.act r was = some (next, now, result)) (hname : was = none → request.name? = some name) :
    s.addressee request = some (name, was) := by
  cases howner with
  | free hfind => rw [addressee, hname rfl]
  | @lent stream _ hloans =>
    have hunnamed : request.name? = none := by
      cases request with
      | put _ | take _ | takeExact _ | takeAll | finish | leave => rfl
      | _ => cases stream <;> cases hact
    exact addressee_of_lent hloans hunnamed

/-- what a request does to the handle under a name: it passes it by, or it acts on its ring -/
inductive Meets (s : Session) (name : String) (request : Request) (s' : Session) : Reply Answer → Prop
  | passes {reply : Reply Answer} : s'.find? name = s.find? name →
      (s'.loans.filter (·.name == name)).Perm (s.loans.filter (·.name == name)) →
      (∀ heard, s.hear name heard request reply = heard) →
      (request.event? s = none ∨ ∃ other was, other ≠ name ∧ s.addressee request = some (other, was)) →
      Meets s name request s' reply
  | acts {handle : Handle} {was now : Option Stream} {rest : List Loan} {next : Ring} {result : Outcome Answer} :
      s.Owner name handle was rest →
      request.act (handle.ring s.files) was = some (next, now, result) →
      s'.files = s.files.setImage handle.node next.image →
      s.Settles s' name { handle with cursor := next.cursor } was now rest →
      (was = none → request.name? = some name) →
      (request.begins → handle.access = .append) →
      (∀ heard, s.hear name heard request (result.reply handle.path)
        = heard.hear was request (result.reply handle.path)) →
      Meets s name request s' (result.reply handle.path)

/-- **What a request does to the handle under a name** -/
theorem Effect.meets (heffect : Effect path s request s' reply) (hkeeps : request.keeps name) :
    s.Meets name request s' reply := by
  cases heffect with
  | unknown hevent =>
    exact .passes rfl (.refl _) (fun heard => hear_of_silent heard fun was => hear_error heard was request _)
      (.inl hevent)
  | reader _ hevent =>
    exact .passes rfl (.refl _) (fun heard => hear_of_silent heard fun was => hear_error heard was request _)
      (.inl hevent)
  | idle hidle hevent =>
    refine .passes rfl (.refl _) (fun heard => hear_of_silent heard fun was => ?_) (.inl hevent)
    rcases hidle with rfl | ⟨index, rfl⟩ <;> rfl
  | @opened other access handle hopen =>
    have hne : other ≠ name := by simpa [Request.keeps] using hkeeps
    exact .passes (find?_bind_of_ne s _ hne.symm) (.refl _) (fun heard => hear_of_silent heard fun _ => rfl) (.inl rfl)
  | unopened hopen => exact .passes rfl (.refl _) (fun heard => hear_of_silent heard fun _ => rfl) (.inl rfl)
  | @closed other handle hfind =>
    have hne : other ≠ name := by simpa [Request.keeps] using hkeeps
    exact .passes (find?_release_of_ne s hne.symm) (.refl _) (fun heard => hear_of_silent heard fun _ => rfl) (.inl rfl)
  | @turned index loan hloan =>
    obtain ⟨hindex, rfl⟩ := List.getElem?_eq_some_iff.1 hloan
    have hperm := (List.getElem_cons_eraseIdx_perm hindex).filter (·.name == name)
    exact .passes rfl hperm (fun heard => hear_of_silent heard fun _ => rfl) (.inl rfl)
  | @acted _ other handle was now rest next result _ howner hact hfiles hsettles hname haccess =>
    have haddressee := howner.addressee_eq hact hname
    by_cases hother : other = name
    · subst hother
      exact .acts howner hact hfiles hsettles hname haccess fun heard =>
        (hear_of_addressee heard _ haddressee).trans (if_pos rfl)
    · exact .passes (hsettles.others name (Ne.symm hother)) (.of_eq (hsettles.elsewhere howner hother))
        (fun heard => (hear_of_addressee heard _ haddressee).trans (if_neg hother))
        (.inr ⟨other, was, hother, haddressee⟩)

end Has

/-! ## One handle that appends -/

/-- a request that opens no handle but to read, and none under this name -/
def Request.guest (name : String) : Request → Bool
  | .openRing other access => other != name && access == .read
  | _ => true

/-- no handle appends but the one under this name, if there is one, and only it writes a record in pieces -/
structure Single (s : Session) (name : String) : Prop where
  free : ∀ entry ∈ s.handles, entry.2.access = .append → entry.1 = name
  lent : ∀ loan ∈ s.loans, loan.handle.access = .append → loan.name = name
  writing : ∀ loan ∈ s.loans, loan.stream.writer?.isSome → loan.handle.access = .append
  sole : (∃ handle was, s.Has name handle was) ∨ s.Lacks name

namespace Single

section Single

variable {s s' : Session} {path : Path} {node capacity : Nat} {name other : String} {handle : Handle}
  {was : Option Stream} {rest : List Loan} {request : Request} {reply : Reply Answer} {event : Event}

/-- there is no other handle -/
theorem bind (files : FileSystem) (name : String) (handle : Handle) :
    (({ files } : Session).bind name handle).Single name where
  free entry hentry _ := by
    rcases mem_bind hentry with rfl | hnone
    · rfl
    · cases hnone
  lent := List.forall_mem_nil _
  writing := List.forall_mem_nil _
  sole := Or.inl ⟨handle, none, find?_bind_self _ _ _, rfl⟩

/-- a handle that appends has the name -/
theorem name_eq (h : s.Single name) (howner : s.Owner other handle was rest) (haccess : handle.access = .append) :
    other = name := by
  cases howner with
  | free hfind => exact h.free _ (find?_mem hfind) haccess
  | lent hloans => exact h.lent _ (hloans ▸ List.mem_cons_self) haccess

theorem name_eq_of_has (h : s.Single name) (hhas : s.Has other handle was) (haccess : handle.access = .append) :
    other = name := by
  rcases hhas.mem with hfree | ⟨stream, -, hlent⟩
  · exact h.free _ hfree haccess
  · exact h.lent _ hlent haccess

/-- a record that is being written has just been begun, or was being written before; and both take a handle that
appends -/
theorem access_eq (h : s.Single name) {now : Option Stream} {next : Ring} {result : Outcome Answer} {stream : Stream}
    (hsound : (handle.ring s.files).Sound) (howner : s.Owner other handle was rest)
    (hact : request.act (handle.ring s.files) was = some (next, now, result))
    (haccess : request.begins → handle.access = .append) (hnow : now = some stream) (hwriting : stream.writer?.isSome) :
    handle.access = .append := by
  by_contra hreads
  have hbegins : request.begins = false := by simpa using fun hbegins => hreads (haccess hbegins)
  have hwas : ∀ before ∈ was, before.writer? = none := by
    rintro before rfl
    by_contra hwrites
    cases howner with
    | lent hloans => exact hreads (h.writing _ (hloans ▸ List.mem_cons_self) (Option.isSome_iff_ne_none.2 hwrites))
  rw [(Request.act_quiet hsound hact hbegins hwas).2 stream hnow] at hwriting
  cases hwriting

/-- while the handle is free, it is not lent -/
theorem loans_eq (h : s.Single name) (hfind : s.find? name = some handle) : s.loans.filter (·.name == name) = [] := by
  rcases h.sole with ⟨found, was, hhas⟩ | hlacks
  · have hfound := hhas.find
    have hloans := hhas.loans
    cases was with
    | none => exact hloans
    | some stream => cases hfind.symm.trans hfound
  · exact hlacks.loans

/-- and then no record is being written -/
theorem writers_eq (h : s.Single name) (hfind : s.find? name = some handle) : s.writers = [] := by
  rw [writers, List.filterMap_eq_nil_iff]
  intro loan hloan
  by_contra hwriting
  have hname := h.lent loan hloan (h.writing loan hloan (Option.isSome_iff_ne_none.2 hwriting))
  exact List.filter_eq_nil_iff.1 (h.loans_eq hfind) loan hloan (by simpa using hname)

/-- who asks anything of the queue may append -/
theorem appends (h : s.Single name) (hasks : s.Asks request event) (howner : s.Owner other handle was rest)
    {now : Option Stream}
    {next : Ring} {result : Outcome Answer} (hact : request.act (handle.ring s.files) was = some (next, now, result))
    (haccess : request.begins → handle.access = .append) : handle.access = .append := by
  cases hasks with
  | append _ | start _ => exact haccess rfl
  | put hloans | finish hloans | leave hloans =>
    cases howner with
    | free _ => cases hact
    | lent hlent =>
      cases hlent.symm.trans hloans
      exact h.writing _ (hloans ▸ List.mem_cons_self) rfl

/-- what asks anything of the queue is for the handle that appends -/
theorem addressee_eq (h : s.Single name) (hasks : s.Asks request event) :
    ∃ was, s.addressee request = some (name, was) := by
  have hfree : ∀ other handle, s.appender other = .ok handle → other = name := fun other handle happender =>
    h.name_eq (.free (Reflects.appender_ok happender)) (access_of_appender happender)
  have hlent : ∀ other handle writer rest, s.loans = { name := other, handle, stream := .writing writer } :: rest →
      request.name? = none → ∃ was, s.addressee request = some (name, was) := by
    intro other handle writer rest hloans hunnamed
    have hmem : { name := other, handle, stream := .writing writer } ∈ s.loans := hloans ▸ List.mem_cons_self
    obtain rfl : other = name := h.lent _ hmem (h.writing _ hmem rfl)
    exact ⟨_, addressee_of_lent hloans hunnamed⟩
  cases hasks with
  | append happender =>
    obtain rfl := hfree _ _ happender
    exact ⟨none, rfl⟩
  | start happender =>
    obtain rfl := hfree _ _ happender
    exact ⟨none, rfl⟩
  | put hloans => exact hlent _ _ _ _ hloans rfl
  | finish hloans => exact hlent _ _ _ _ hloans rfl
  | leave hloans => exact hlent _ _ _ _ hloans rfl

/-- no two records are being written at once -/
theorem admits (h : s.Single name) (request : Request) : s.Admits request := by
  have hfree : ∀ other handle, s.appender other = .ok handle → s.writers = [] := by
    intro other handle happender
    have hfind := Reflects.appender_ok happender
    obtain rfl := h.name_eq (.free hfind) (access_of_appender happender)
    exact h.writers_eq hfind
  intro hbegins
  obtain ⟨event, hevent, hevents⟩ := (Option.any_eq_true _ _).1 hbegins
  cases asks_of_event hevent with
  | append happender => exact hfree _ _ happender
  | start happender => exact hfree _ _ happender
  | _ => cases hevents

/-- there is one handle under the name, or none, and so it stays -/
theorem sole_of_effect (h : s.Single name) (heffect : Effect path s request s' reply) (hguest : request.guest name) :
    (∃ handle was, s'.Has name handle was) ∨ s'.Lacks name := by
  by_cases hclose : request = .close name
  · subst hclose
    cases heffect with
    | closed hfind => exact Or.inr ⟨find?_release_self s name, h.loans_eq hfind⟩
    | acted howner hact => cases howner <;> cases hact
    | _ => exact h.sole
  · have hkeeps : request.keeps name := by
      cases request with
      | openRing other access => exact (Bool.and_eq_true_iff.1 hguest).1
      | close other => simpa [Request.keeps] using hclose
      | _ => rfl
    cases heffect.meets hkeeps with
    | passes hfind hloans =>
      rcases h.sole with ⟨handle, was, hhas⟩ | hlacks
      · exact Or.inl ⟨handle, was, hhas.perm hfind hloans⟩
      · exact Or.inr (hlacks.perm hfind hloans)
    | acts howner hact hfiles hsettles =>
      rcases h.sole with ⟨handle, was, hhas⟩ | hlacks
      · obtain ⟨rfl, rfl⟩ := hhas.owner_eq howner
        exact Or.inl ⟨_, _, hhas.settles howner hsettles⟩
      · exact absurd howner hlacks.no_owner

/-- **One handle appends**, as long as others are opened to read. -/
theorem effect (h : s.Single name) (hrange : s.InRange path node capacity) (heffect : Effect path s request s' reply)
    (hguest : request.guest name) : s'.Single name := by
  have hsole := h.sole_of_effect heffect hguest
  cases heffect with
  | @opened other access handle hopen =>
    obtain ⟨place, hlookup⟩ := hrange.lookup
    cases hopen.symm.trans (Handle.openRing_eq_ok hlookup hrange.opens access)
    refine ⟨?_, h.lent, h.writing, hsole⟩
    intro entry hentry happends
    rcases mem_bind hentry with rfl | hold
    · obtain rfl : access = .read := by simpa using (Bool.and_eq_true_iff.1 hguest).2
      cases happends
    · exact h.free entry hold happends
  | closed hfind => exact ⟨fun entry hentry => h.free entry (List.mem_filter.1 hentry).1, h.lent, h.writing, hsole⟩
  | @turned index loan hloan =>
    have hmem : ∀ other ∈ loan :: s.loans.eraseIdx index, other ∈ s.loans :=
      List.forall_mem_cons.2 ⟨List.mem_of_getElem? hloan, fun _ => List.mem_of_mem_eraseIdx⟩
    exact ⟨h.free, fun other hother => h.lent other (hmem other hother),
      fun other hother => h.writing other (hmem other hother), hsole⟩
  | @acted _ other handle was now rest next result _ howner hact hfiles hsettles hname haccess =>
    obtain ⟨hhandle, hrest⟩ := howner.based hrange.toBased
    refine ⟨?_, ?_, ?_, hsole⟩
    · intro entry hentry happends
      rcases hsettles.handles entry hentry with rfl | hold
      · exact h.name_eq howner happends
      · exact h.free entry hold happends
    · intro loan hloan happends
      rcases hsettles.mem_loans hloan with ⟨stream, hnow, rfl⟩ | hold
      · exact h.name_eq howner happends
      · exact h.lent loan (hrest loan hold) happends
    · intro loan hloan hwriting
      rcases hsettles.mem_loans hloan with ⟨stream, rfl, rfl⟩ | hold
      · have happends : handle.access = .append := h.access_eq (hrange.sound hhandle) howner hact haccess rfl hwriting
        exact happends
      · exact h.writing loan (hrest loan hold) hwriting
  | _ => exact h

end Single

end Single

end CircularLog.Session
