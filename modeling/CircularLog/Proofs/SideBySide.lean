/-
Two sessions side by side. The second has the same handles and the same loans on a file of the same name; the file's
bytes, the cursors and the records in pieces are what a pairing makes of those of the first. Whatever the pairing is,
such sessions stay side by side if the requests do what the pairing says on the ring of each handle: names, loans and
files need no second look.

- `Session.Pairing`: what the second session makes of a cursor, a record in pieces, the bytes and an answer.
- `Session.Pairing.recast`: the second session.
- `Session.Request.Like`: requests that are the same but for the bytes that they bring.
- `Session.Pairing.serve`: one request to each session.
-/
import CircularLog.Proofs.Safety
import CircularLog.Proofs.Settling

namespace CircularLog

def Handle.moved (place : Nat → Nat) (handle : Handle) : Handle := { handle with cursor := place handle.cursor }

def Loan.moved (place : Nat → Nat) (piece : Stream → Stream) (loan : Loan) : Loan :=
  { loan with handle := loan.handle.moved place, stream := piece loan.stream }

namespace Session

/-- what the callers of the requests are given, one after another -/
def answers (path : Path) : Session → List Request → List (Reply Answer)
  | _, [] => []
  | s, request :: rest => s.answer path request :: answers path (s.serve path request).1 rest

/-- the requests are the same, but the bytes of a record or of a piece of one are others -/
inductive Request.Like (ρ : UInt8 → UInt8 → Prop) : Request → Request → Prop
  | same (request : Request) : Like ρ request request
  | append {name : String} {payload other : Bytes} : List.Forall₂ ρ payload other →
      Like ρ (.append name payload) (.append name other)
  | put {chunk other : Bytes} : List.Forall₂ ρ chunk other → Like ρ (.put chunk) (.put other)

namespace Request.Like

variable {ρ : UInt8 → UInt8 → Prop} {request request' : Request}

theorem name_eq (h : request.Like ρ request') : request'.name? = request.name? := by cases h <;> rfl

theorem addresses_eq (h : request.Like ρ request') : request'.addresses = request.addresses := by cases h <;> rfl

theorem peeks_eq (h : request.Like ρ request') : request'.peeks = request.peeks := by cases h <;> rfl

theorem begins_eq (h : request.Like ρ request') : request'.begins = request.begins := by cases h <;> rfl

theorem vain_eq (h : request.Like ρ request') : request'.vain = request.vain := by cases h <;> rfl

end Request.Like

/-- what a second session on a ring of this capacity makes of what there is in the first -/
structure Pairing (capacity : Nat) where
  /-- where a cursor is -/
  place : Nat → Nat
  /-- a record in pieces -/
  piece : Stream → Stream
  /-- the bytes of the file -/
  alike : Image → Image → Prop
  /-- what a caller is given -/
  heard : Reply Answer → Reply Answer → Prop
  opens : ∀ {image other : Image}, alike image other → image.Opens capacity →
    other.Opens capacity ∧ other.start = place image.start
  done : heard (.ok .done) (.ok .done)
  unknown : heard (.error .unknownHandle) (.error .unknownHandle)
  reader : heard (.error .notAppender) (.error .notAppender)

namespace Pairing

/-- the session beside `s`, whose file has these bytes -/
def recast {capacity : Nat} (m : Pairing capacity) (node : Nat) (image : Image) (s : Session) : Session where
  files := s.files.setImage node image
  handles := s.handles.map fun entry => (entry.1, entry.2.moved m.place)
  loans := s.loans.map (Loan.moved m.place m.piece)

/-- the ring beside `r`, whose file has these bytes -/
def ring {capacity : Nat} (m : Pairing capacity) (image : Image) (r : Ring) : Ring :=
  { r with image, cursor := m.place r.cursor }

theorem heard_vain {capacity : Nat} (m : Pairing capacity) (request : Request) : m.heard request.vain request.vain := by
  cases request with
  | leave => exact m.done
  | _ => exact m.unknown

/-- what two requests do to two rings, if they do anything, and what their callers are given -/
inductive Acts {capacity : Nat} (m : Pairing capacity) (path : Path) :
    Option (Ring × Option Stream × Outcome Answer) → Option (Ring × Option Stream × Outcome Answer) → Prop
  | none : Acts m path none none
  | some {next other : Ring} {now : Option Stream} {result result' : Outcome Answer} :
      other.cursor = m.place next.cursor →
      m.alike next.image other.image → m.heard (result.reply path) (result'.reply path) →
      Acts m path (some (next, now, result)) (some (other, now.map m.piece, result'))

section Recast

variable {capacity : Nat} (m : Pairing capacity) (node : Nat) (image : Image) (s : Session) (name : String)
  {handle : Handle} {was now : Option Stream} {rest : List Loan} {next other : Ring}

theorem find?_recast : (m.recast node image s).find? name = (s.find? name).map (Handle.moved m.place) := by
  simp only [find?, recast, List.find?_map, Option.map_map]
  rfl

theorem release_recast : (m.recast node image s).release name = m.recast node image (s.release name) := by
  simp only [release, recast, List.filter_map]
  rfl

theorem bind_recast (handle : Handle) :
    (m.recast node image s).bind name (handle.moved m.place) = m.recast node image (s.bind name handle) := by
  rw [Session.bind, release_recast]
  rfl

/-- the ring of a handle in the second session -/
theorem ring_recast (h : node < s.files.images.size) (hnode : handle.node = node) :
    (handle.moved m.place).ring (m.recast node image s).files = m.ring image (handle.ring s.files) := by
  subst hnode
  simp only [Handle.ring, Handle.moved, recast, ring, FileSystem.image_setImage h]

theorem lend_recast (loan : Loan) :
    (m.recast node image s).lend (loan.moved m.place m.piece) = m.recast node image (s.lend loan) := by
  have hname : (loan.moved m.place m.piece).name = loan.name := rfl
  rw [lend, hname, release_recast]
  rfl

theorem save_recast (hnode : handle.node = node) (hcursor : other.cursor = m.place next.cursor) :
    (m.recast node image s).save name (handle.moved m.place) other
      = m.recast node other.image (s.save name handle next) := by
  subst hnode
  have hfiles : ∀ before after : Image, (s.files.setImage handle.node before).setImage handle.node after
      = s.files.setImage handle.node after := FileSystem.setImage_setImage s.files handle.node
  have hsaved : { m.recast handle.node image s with files := s.files.setImage handle.node other.image }
      = m.recast handle.node other.image { s with files := s.files.setImage handle.node next.image } := by
    simp only [recast, hfiles]
  have hhandle : { handle.moved m.place with cursor := other.cursor }
      = ({ handle with cursor := next.cursor } : Handle).moved m.place := by
    simp only [Handle.moved, hcursor]
  calc (m.recast handle.node image s).save name (handle.moved m.place) other
      = ({ m.recast handle.node image s with files := s.files.setImage handle.node other.image } : Session).bind name
          { handle.moved m.place with cursor := other.cursor } := by
        simp only [save, Ring.save, recast, Handle.moved, hfiles]
    _ = m.recast handle.node other.image (s.save name handle next) := by
        rw [hsaved, hhandle, bind_recast]
        rfl

theorem settled_recast (hnode : handle.node = node) (hcursor : other.cursor = m.place next.cursor) :
    (m.recast node image s).settled name (handle.moved m.place) (was.map m.piece)
      (rest.map (Loan.moved m.place m.piece)) other
        (now.map m.piece)
      = m.recast node other.image (s.settled name handle was rest next now) := by
  rcases now with _ | now
  · exact m.save_recast node image { s with loans := rest } name hnode hcursor
  · rcases was with _ | was
    · have hlent := m.lend_recast node other.image (s.save name handle next)
        { name, handle := { handle with cursor := next.cursor }, stream := now }
      simp only [settled, Option.map_none, Option.map_some]
      rw [m.save_recast node image s name hnode hcursor, ← hlent, hcursor]
      rfl
    · subst hnode
      have hfiles := FileSystem.setImage_setImage s.files handle.node
      simp only [settled, recast, Handle.moved, Loan.moved, hcursor, hfiles, Option.map_some, List.map_cons]

end Recast

/-- the second session is beside the first -/
def Beside {capacity : Nat} (m : Pairing capacity) (node : Nat) (s t : Session) : Prop :=
  ∃ image, m.alike (s.files.image node) image ∧ t = m.recast node image s

section Serve

variable {capacity node : Nat} {m : Pairing capacity} {ρ : UInt8 → UInt8 → Prop} {path : Path} {image : Image}
  {s t : Session} {name : String} {handle : Handle} {was : Option Stream} {rest : List Loan}
  {request request' : Request} {acted acted' : Option (Ring × Option Stream × Outcome Answer)}

theorem Beside.same (h : m.Beside node s t) (hanswer : m.heard (s.answer path request) (t.answer path request'))
    (hserve : (s.serve path request).1 = s) (hserve' : (t.serve path request').1 = t) :
    m.Beside node (s.serve path request).1 (t.serve path request').1
      ∧ m.heard (s.answer path request) (t.answer path request') := by
  rw [hserve, hserve']
  exact ⟨h, hanswer⟩

/-- a request to the table of names, or to the order of the loans -/
theorem serve_table (h : s.InRange path node capacity) (hbeside : m.Beside node s t)
    (haddresses : request.addresses = false) :
    m.Beside node (s.serve path request).1 (t.serve path request).1
      ∧ m.heard (s.answer path request) (t.answer path request) := by
  obtain ⟨image, halike, rfl⟩ := hbeside
  cases request with
  | openRing name access =>
    obtain ⟨place, hlookup⟩ := h.lookup
    obtain ⟨hopens, hstart⟩ := m.opens halike h.opens
    have himage : (m.recast node image s).files.image node = image := FileSystem.image_setImage h.node_lt
    have hlookup' : (m.recast node image s).files.lookup path = .ok (place, .file node) := by
      rw [recast, FileSystem.lookup_setImage, hlookup]
    have hfound := Handle.openRing_eq_ok hlookup h.opens access
    have hfound' := Handle.openRing_eq_ok hlookup' (himage.symm ▸ hopens) access
    rw [himage, hstart] at hfound'
    constructor
    · simp only [Session.serve, Session.openRing, hfound, hfound']
      exact ⟨image, halike, m.bind_recast node image s name { path, node, access, capacity, cursor := _ }⟩
    · simp only [answer, Session.openRing, hfound, hfound']
      exact m.done
  | close name =>
    have hfind := m.find?_recast node image s name
    cases hfound : s.find? name with
    | none =>
      rw [hfound, Option.map_none] at hfind
      have hclose : Request.name? (.close name) = some name := rfl
      obtain ⟨hserve, hanswer⟩ := serve_unknown path hclose hfound
      obtain ⟨hserve', hanswer'⟩ := serve_unknown path hclose hfind
      exact Beside.same ⟨image, halike, rfl⟩ (hanswer ▸ hanswer' ▸ m.unknown) hserve hserve'
    | some handle =>
      rw [hfound, Option.map_some] at hfind
      constructor
      · simp only [Session.serve, Session.close, hfound, hfind]
        exact ⟨image, halike, m.release_recast node image s name⟩
      · simp only [answer, Session.close, hfound, hfind]
        exact m.done
  | turn index =>
    refine ⟨?_, m.done⟩
    have hloan : (m.recast node image s).loans[index]? = (s.loans[index]?).map (Loan.moved m.place m.piece) :=
      List.getElem?_map
    cases hfound : s.loans[index]? with
    | none =>
      rw [hfound, Option.map_none] at hloan
      simp only [Session.serve, Session.turn, hfound, hloan]
      exact ⟨image, halike, rfl⟩
    | some loan =>
      rw [hfound, Option.map_some] at hloan
      simp only [Session.serve, Session.turn, hfound, hloan]
      refine ⟨image, halike, ?_⟩
      simp only [recast, List.map_cons, List.eraseIdx_map]
  | _ => cases haddresses

/-- a request that names a handle is for it while it is free -/
theorem act_of_name {r : Ring} (haddresses : request.addresses) (hname : request.name? = some name) :
    ∃ next now result, request.act r none = some (next, now, result) := by
  cases request with
  | rewind _ | record _ | read _ _ | append _ _ => exact ⟨_, _, _, rfl⟩
  | startWrite _ total =>
    rw [Request.act]
    split <;> exact ⟨_, _, _, rfl⟩
  | startRead _ =>
    rw [Request.act]
    split <;> exact ⟨_, _, _, rfl⟩
  | openRing _ _ | close _ => cases haddresses
  | _ => cases hname

/-- a handle that has acted in both sessions -/
theorem beside_settled (h : s.Based path node capacity) (hnode : handle.node = node) {next other : Ring}
    {now : Option Stream} (hcursor : other.cursor = m.place next.cursor) (halike : m.alike next.image other.image) :
    m.Beside node (s.settled name handle was rest next now)
      ((m.recast node image s).settled name (handle.moved m.place) (was.map m.piece)
        (rest.map (Loan.moved m.place m.piece)) other
        (now.map m.piece)) := by
  refine ⟨other.image, ?_, m.settled_recast node _ s name hnode hcursor⟩
  have hfiles : (s.settled name handle was rest next now).files = s.files.setImage node next.image := by
    subst hnode
    rcases was with _ | was <;> rcases now with _ | now <;> rfl
  rw [hfiles, FileSystem.image_setImage h.node_lt]
  exact halike

/-- a request to a free handle, found under its name -/
theorem serve_named (h : s.InRange path node capacity) (halike : m.alike (s.files.image node) image)
    (haddresses : request.addresses) (hlike : request.Like ρ request') (hname : request.name? = some name)
    (hact : ∀ handle, s.find? name = some handle → m.Acts path (request.act (handle.ring s.files) none)
      (request'.act (m.ring image (handle.ring s.files)) none)) :
    m.Beside node (s.serve path request).1 ((m.recast node image s).serve path request').1
      ∧ m.heard (s.answer path request) ((m.recast node image s).answer path request') := by
  have hbeside : m.Beside node s (m.recast node image s) := ⟨image, halike, rfl⟩
  have hname' : request'.name? = some name := hlike.name_eq.trans hname
  have hpeeks := hlike.peeks_eq
  have hbegins := hlike.begins_eq
  have hfind := m.find?_recast node image s name
  cases hfound : s.find? name with
  | none =>
    rw [hfound, Option.map_none] at hfind
    obtain ⟨hserve, hanswer⟩ := serve_unknown path hname hfound
    obtain ⟨hserve', hanswer'⟩ := serve_unknown path hname' hfind
    exact hbeside.same (hanswer ▸ hanswer' ▸ m.unknown) hserve hserve'
  | some handle =>
    rw [hfound, Option.map_some] at hfind
    by_cases haccess : request.begins → handle.access = .append
    · obtain ⟨next, now, result, hacts⟩ := act_of_name (r := handle.ring s.files) haddresses hname
      have hhandle := h.handles _ (find?_mem hfound)
      have hboth := hact handle hfound
      rw [hacts, ← m.ring_recast node image s h.node_lt hhandle.node_eq] at hboth
      generalize hacts' : request'.act _ _ = acted' at hboth
      cases hboth with
      | @some _ other now _ result' hcursor hnext hheard =>
        obtain ⟨hserve, hanswer⟩ := serve_of_find path hfound hname haccess hacts
        obtain ⟨hserve', hanswer'⟩ := serve_of_find path hfind hname' (hbegins ▸ haccess) hacts'
        have hpath : handle.path = path := hhandle.path_eq
        have hpath' : (handle.moved m.place).path = path := hpath
        refine ⟨?_, by rwa [hanswer, hanswer', hpath, hpath']⟩
        rw [hserve, hserve', hpeeks]
        by_cases hidle : request.peeks ∧ now = none
        · rw [if_pos hidle, if_pos (by simpa using hidle)]
          exact hbeside
        · rw [if_neg hidle, if_neg (by simpa using hidle)]
          exact beside_settled h.toBased hhandle.node_eq hcursor hnext
    · obtain ⟨hbegun, hreader⟩ := Classical.not_imp.1 haccess
      obtain ⟨hserve, hanswer⟩ := serve_reader path hname hfound hbegun hreader
      obtain ⟨hserve', hanswer'⟩ := serve_reader path hname' hfind (hbegins ▸ hbegun) hreader
      exact hbeside.same (hanswer ▸ hanswer' ▸ m.reader) hserve hserve'

/-- a request to the handle of the first loan -/
theorem serve_lent (h : s.InRange path node capacity) (halike : m.alike (s.files.image node) image)
    (haddresses : request.addresses) (hlike : request.Like ρ request') (hname : request.name? = none)
    (hact : ∀ name handle stream rest, s.loans = { name, handle, stream } :: rest →
      m.Acts path (request.act (handle.ring s.files) (some stream))
        (request'.act (m.ring image (handle.ring s.files)) (some (m.piece stream)))) :
    m.Beside node (s.serve path request).1 ((m.recast node image s).serve path request').1
      ∧ m.heard (s.answer path request) ((m.recast node image s).answer path request') := by
  have hbeside : m.Beside node s (m.recast node image s) := ⟨image, halike, rfl⟩
  have haddresses' : request'.addresses := hlike.addresses_eq.trans haddresses
  have hname' : request'.name? = none := hlike.name_eq.trans hname
  have hvain : m.heard request.vain request'.vain := by
    rw [hlike.vain_eq]
    exact m.heard_vain request
  cases hloans : s.loans with
  | nil =>
    have hloans' : (m.recast node image s).loans = [] := by rw [recast, hloans, List.map_nil]
    obtain ⟨hserve, hanswer⟩ := serve_idle path haddresses hname hloans
    obtain ⟨hserve', hanswer'⟩ := serve_idle path haddresses' hname' hloans'
    exact hbeside.same (hanswer ▸ hanswer' ▸ hvain) hserve hserve'
  | cons loan rest =>
    obtain ⟨name, handle, stream⟩ := loan
    have hloans' : (m.recast node image s).loans
        = { name, handle := handle.moved m.place, stream := m.piece stream } ::
          rest.map (Loan.moved m.place m.piece) := by
      rw [recast, hloans]
      rfl
    have hhandle := h.loans _ (hloans ▸ List.mem_cons_self)
    have hpath : handle.path = path := hhandle.path_eq
    have hpath' : (handle.moved m.place).path = path := hpath
    have hboth := hact name handle stream rest hloans
    rw [← m.ring_recast node image s h.node_lt hhandle.node_eq] at hboth
    generalize hacts : request.act _ _ = acted at hboth
    generalize hacts' : request'.act _ _ = acted' at hboth
    cases hboth with
    | none =>
      obtain ⟨hserve, hanswer⟩ := serve_unlike path haddresses hname hloans hacts
      obtain ⟨hserve', hanswer'⟩ := serve_unlike path haddresses' hname' hloans' hacts'
      exact hbeside.same (hanswer ▸ hanswer' ▸ hvain) hserve hserve'
    | @some next other now _ result' hcursor hnext hheard =>
      obtain ⟨hserve, hanswer⟩ := serve_of_loan path hloans hacts
      obtain ⟨hserve', hanswer'⟩ := serve_of_loan path hloans' hacts'
      refine ⟨?_, by rwa [hanswer, hanswer', hpath, hpath']⟩
      rw [hserve, hserve']
      exact beside_settled h.toBased hhandle.node_eq hcursor hnext

/-- **One request to each session.** They stay side by side, and so are their callers, if on the ring of each handle the
requests do what the pairing says. -/
theorem serve (h : s.InRange path node capacity) (hbeside : m.Beside node s t) (hlike : request.Like ρ request')
    (hact : ∀ image, m.alike (s.files.image node) image → t = m.recast node image s →
      ∀ name handle was rest, s.Owner name handle was rest → m.Acts path (request.act (handle.ring s.files) was)
        (request'.act (m.ring image (handle.ring s.files)) (was.map m.piece))) :
    m.Beside node (s.serve path request).1 (t.serve path request').1
      ∧ m.heard (s.answer path request) (t.answer path request') := by
  by_cases haddresses : request.addresses
  · obtain ⟨image, halike, rfl⟩ := hbeside
    have hring := hact image halike rfl
    cases hname : request.name? with
    | some name =>
      exact serve_named h halike haddresses hlike hname fun handle hfind => hring name handle none _ (.free hfind)
    | none =>
      exact serve_lent h halike haddresses hlike hname fun name handle stream rest hloans =>
        hring name handle (some stream) rest (.lent hloans)
  · have hsame : request' = request := by
      cases hlike with
      | same => rfl
      | append _ | put _ => exact absurd rfl haddresses
    subst hsame
    exact serve_table h hbeside (Bool.eq_false_iff.2 haddresses)

end Serve

end Pairing

end Session

end CircularLog
