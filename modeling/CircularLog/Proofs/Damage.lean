/-
Damage stays behind what it hits. Bytes of the data are overwritten from outside, with whatever; the control block is
not. The frames in front of the first byte that was hit are read as before, since how a frame is found depends on its
own bytes alone. Where only bytes of one record were hit, behind its prefix, the other records are read as well, and of
that record the bytes that were not hit.

- `prefix_same`, `prefix_patched`: what is left of a front of the circle.
- `FileSystem.scan`: what a reader finds that is opened now.
- `Image.Overwritten`: other data, but for some bytes that are spared.
- `Image.Overwritten.leads`, `Image.Overwritten.lies`: the records that are there all the same.
- `FileSystem.Stores.contains`: what is read of a file that holds records.
- `damage_is_contained`: the same for a ring after any requests.
-/
import CircularLog.Proofs.CommandLine
import CircularLog.Proofs.Transfers

namespace CircularLog

/-! ## Fronts of changed bytes -/

section Fronts

variable {front old back bytes other : Bytes} {i : Nat}

theorem prefix_same (h : front <+: bytes) (hsame : ∀ i < front.length, other[i]? = bytes[i]?) : front <+: other := by
  rw [List.prefix_iff_getElem?] at h ⊢
  intro i hi
  rw [hsame i hi, h i hi]

/-- only bytes between a front and what follows it are changed -/
theorem prefix_patched (h : front ++ old ++ back <+: bytes) (hlength : other.length = bytes.length)
    (hsame : ∀ i, i < front.length ∨ front.length + old.length ≤ i → other[i]? = bytes[i]?) :
    ∃ changed : Bytes, changed.length = old.length ∧ front ++ changed ++ back <+: other := by
  have hfront : front <+: bytes := by
    rw [List.append_assoc] at h
    exact (List.prefix_append _ _).trans h
  obtain ⟨tail, rfl⟩ := prefix_same hfront fun i hi => hsame i (.inl hi)
  obtain ⟨rest, rfl⟩ := h
  have hback : back <+: tail.drop old.length := by
    apply prefix_same (List.prefix_append back rest)
    intro i _
    have hbehind := hsame (front.length + old.length + i) (.inr (by omega))
    rw [Nat.add_assoc, List.getElem?_append_right (by omega), Nat.add_sub_cancel_left, List.append_assoc,
      List.append_assoc, List.getElem?_append_right (by omega), Nat.add_sub_cancel_left,
      List.getElem?_append_right (by omega), Nat.add_sub_cancel_left] at hbehind
    rw [List.getElem?_drop, hbehind]
  refine ⟨tail.take old.length, ?_, ?_⟩
  · simp only [List.length_append] at hlength
    rw [List.length_take]
    omega
  · conv_rhs => rw [← List.take_append_drop old.length tail, ← List.append_assoc]
    exact (List.prefix_append_right_inj _).2 hback

/-- the bytes in the middle -/
theorem getElem?_middle (h : front ++ old ++ back <+: bytes) (hi : i < old.length) :
    bytes[front.length + i]? = old[i]? := by
  obtain ⟨rest, rfl⟩ := h
  rw [List.append_assoc, List.append_assoc, List.getElem?_append_right (by omega), Nat.add_sub_cancel_left,
    List.getElem?_append_left hi]

end Fronts

/-! ## A reader that is opened now -/

/-- the records that it reads, at most `count` of them, and how that ends -/
def FileSystem.scan (fs : FileSystem) (path : Path) (count : Nat) : Outcome (List Bytes × Ring.Ending) := do
  let handle ← Handle.openRing fs path .read
  return ((handle.ring fs).drain count).2

/-- the records that were read already come first -/
theorem Ring.drainFrom_eq (r : Ring) (count : Nat) (taken : List Bytes) :
    r.drainFrom count taken = ((r.drain count).1, taken.reverse ++ (r.drain count).2.1, (r.drain count).2.2) := by
  induction count generalizing r taken with
  | zero => simp [Ring.drain, Ring.drainFrom]
  | succ count ih =>
    rw [Ring.drain, Ring.drainFrom, Ring.drainFrom]
    split
    · simp
    · simp
    · rename_i next payload _
      rw [ih next (payload :: taken), ih next [payload]]
      simp

/-- reading on from a cursor in front of the records gives these records first -/
theorem Image.Leads.drain {r : Ring} {kept : List Bytes} (hsound : r.Sound) (h : r.image.Leads r.capacity r.cursor kept)
    (count : Nat) : ∃ more ending, (r.drain (kept.length + count)).2 = (kept ++ more, ending) := by
  rw [Ring.drain, h.drainFrom hsound, List.append_nil, Ring.drainFrom_eq, List.reverse_reverse]
  exact ⟨_, _, rfl⟩

namespace FileSystem

variable {fs : FileSystem} {path : Path} {node capacity : Nat}

theorem scan_eq (hlookup : ∃ place, fs.lookup path = .ok (place, .file node)) (hopens : (fs.image node).Opens capacity)
    (count : Nat) :
    fs.scan path count
      = .ok (({ image := fs.image node, capacity, cursor := (fs.image node).start } : Ring).drain count).2 := by
  obtain ⟨place, hlookup⟩ := hlookup
  simp only [scan, Handle.openRing_eq_ok hlookup hopens, bind, Except.bind, pure, Except.pure, Handle.ring]

end FileSystem

/-! ## Overwritten bytes -/

/-- the data of the file have become other data, but for the bytes that are spared, counted from the oldest record on -/
structure Image.Overwritten (image other : Image) (capacity : Nat) (spared : Nat → Prop) : Prop where
  size : other.size = image.size
  head : other.head = image.head
  same : ∀ i < capacity, spared i → other.toBytes[Region.place capacity (image.start + i)]?
    = image.toBytes[Region.place capacity (image.start + i)]?

namespace Image.Overwritten

variable {image other : Image} {capacity : Nat} {spared : Nat → Prop} {kept rest before after : List Bytes}
  {payload : Bytes}

theorem opens (h : image.Overwritten other capacity spared) (hopens : image.Opens capacity) : other.Opens capacity :=
  hopens.of_head h.size h.head

/-- what is spared is the same on the turned circle -/
theorem getElem?_same (h : image.Overwritten other capacity spared) (hopens : image.Opens capacity) {i : Nat}
    (hi : i < capacity) (hspared : spared i) :
    (other.circle.rotate image.start)[i]? = (image.circle.rotate image.start)[i]? := by
  rw [Region.getElem?_circle (h.opens hopens).size hi, Region.getElem?_circle hopens.size hi]
  exact h.same i hi hspared

/-- the first records, whose frames are spared -/
theorem leads (hopens : image.Opens capacity) (hlies : image.Lies capacity image.start (kept ++ rest))
    (h : image.Overwritten other capacity (· < weight kept)) : other.Leads capacity other.start kept := by
  have hweight := hlies.weight_lt
  have hway := hlies.way_eq hopens.start_lt
  rw [weight_append] at hweight hway
  have hlength : (framed kept).length = weight kept := length_framed (hopens.lt_bound (by omega))
  have hfront : framed kept <+: image.circle.rotate image.start := by
    have hall := hlies.framed_front
    rw [framed_append] at hall
    exact (List.prefix_append _ _).trans hall
  rw [Image.start_congr h.head]
  refine ⟨?_, ?_⟩
  · rw [Image.stop_congr h.head, hway]
    exact Nat.le_add_right _ _
  · apply prefix_same hfront
    intro i hi
    exact h.getElem?_same hopens (by omega) (by omega)

/-- all the records, when bytes of one of them are not spared -/
theorem lies (hopens : image.Opens capacity) (hlies : image.Lies capacity image.start (before ++ payload :: after))
    (h : image.Overwritten other capacity
      fun i => i < weight before + Varint.size payload.length ∨ weight before + frameLength payload.length ≤ i) :
    ∃ changed : Bytes, changed.length = payload.length ∧ other.Lies capacity other.start (before ++ changed :: after)
      ∧ ∀ i < payload.length,
        changed[i]?
          = other.toBytes[Region.place capacity (image.start + (weight before + Varint.size payload.length + i))]?
        ∧ payload[i]?
          = image.toBytes[Region.place capacity (image.start + (weight before + Varint.size payload.length + i))]? := by
  have hparts := frameLength_eq payload.length
  have hweight := hlies.weight_lt
  rw [weight_append, weight_cons] at hweight
  have hheader : (framed before ++ Varint.encode payload.length).length
      = weight before + Varint.size payload.length := by
    rw [List.length_append, length_framed (hopens.lt_bound (by omega)),
      Varint.length_encode (hopens.lt_bound (by omega))]
  -- the bytes of the record, between what is in front of them and what follows
  have hsplit : ∀ bytes : Bytes, bytes.length = payload.length →
      framed (before ++ bytes :: after) = framed before ++ Varint.encode payload.length ++ bytes ++ framed after := by
    intro bytes hbytes
    simp only [framed_append, framed_cons, Frame.encode, hbytes, List.append_assoc]
  have hfront := hlies.framed_front
  rw [hsplit payload rfl] at hfront
  have hcircle := hopens.length_rotate image.start
  have hcircle' := (h.opens hopens).length_rotate image.start
  obtain ⟨changed, hlength, hpatched⟩ := prefix_patched hfront (hcircle'.trans hcircle.symm) (by
    intro i hi
    rcases Nat.lt_or_ge i capacity with hlt | hge
    · exact h.getElem?_same hopens hlt (by omega)
    · rw [List.getElem?_eq_none (by omega), List.getElem?_eq_none (by omega)])
  refine ⟨changed, hlength, ?_, ?_⟩
  · have hsame : weight (before ++ changed :: after) = weight (before ++ payload :: after) := by
      simp only [weight_append, weight_cons, hlength]
    rw [Image.start_congr h.head]
    refine ⟨hsame ▸ hlies.weight_lt, ?_, ?_⟩
    · rw [hsame, hlies.stop_eq, Image.stop_congr h.head]
    · rw [hsplit changed hlength]
      exact hpatched
  · intro i hi
    have hplace : weight before + Varint.size payload.length + i < capacity := by omega
    rw [← Region.getElem?_circle (h.opens hopens).size hplace, ← Region.getElem?_circle hopens.size hplace, ← hheader]
    exact ⟨(getElem?_middle hpatched (by omega)).symm, (getElem?_middle hfront hi).symm⟩

end Image.Overwritten

/-! ## Files that hold records -/

/-- damage to the data of the file stays behind what it hits -/
structure FileSystem.Contains (fs : FileSystem) (path : Path) (node capacity : Nat) (records : List Bytes) : Prop where
  /-- from the end of some frames on all bytes may have become anything: the records in front are read first, as they
  were -/
  forwards : ∀ kept rest, records = kept ++ rest → ∀ other,
    (fs.image node).Overwritten other capacity (· < weight kept) →
    ∀ count, ∃ more ending, (fs.setImage node other).scan path (kept.length + count) = .ok (kept ++ more, ending)
  /-- bytes of one record may have become others: all of the records are read, and the bytes that are there now -/
  alone : ∀ before payload after, records = before ++ payload :: after → ∀ other,
    (fs.image node).Overwritten other capacity
      (fun i => i < weight before + Varint.size payload.length ∨ weight before + frameLength payload.length ≤ i) →
    ∃ changed : Bytes, changed.length = payload.length
      ∧ (∀ i < payload.length, changed[i]? = other.toBytes[Region.place capacity
            ((fs.image node).start + (weight before + Varint.size payload.length + i))]?
          ∧ payload[i]? = (fs.image node).toBytes[Region.place capacity
            ((fs.image node).start + (weight before + Varint.size payload.length + i))]?)
      ∧ ∀ count, records.length < count →
        (fs.setImage node other).scan path count = .ok (before ++ changed :: after, .exhausted)

namespace FileSystem

section Files

variable {fs : FileSystem} {path : Path} {node capacity count : Nat} {records : List Bytes} {other : Image}

theorem Stores.scan (h : fs.Stores path node capacity records) (hcount : records.length < count) :
    fs.scan path count = .ok (records, .exhausted) := by
  rw [scan_eq h.lookup h.opens, (h.holds h.opens.start_lt).drain (by simp only) hcount]

/-- the file with other bytes, read from the oldest record on -/
theorem Stores.scan_setImage (h : fs.Stores path node capacity records) (hopens : other.Opens capacity) (count : Nat) :
    (fs.setImage node other).scan path count
      = .ok (({ image := other, capacity, cursor := other.start } : Ring).drain count).2 := by
  have himage : (fs.setImage node other).image node = other := image_setImage (node_lt_of_opens h.opens)
  have hlookup : ∃ place, (fs.setImage node other).lookup path = .ok (place, .file node) := h.lookup
  have hscan := @scan_eq (fs.setImage node other) path node capacity
  rw [himage] at hscan
  exact hscan hlookup hopens count

theorem Stores.contains (h : fs.Stores path node capacity records) : fs.Contains path node capacity records where
  forwards kept rest hrecords other hother count := by
    subst hrecords
    have hopens := hother.opens h.opens
    obtain ⟨more, ending, hread⟩ :=
      Image.Leads.drain (hopens.sound hopens.start_lt) (hother.leads h.opens h.lies) count
    exact ⟨more, ending, by rw [h.scan_setImage hopens, hread]⟩
  alone before payload after hrecords other hother := by
    subst hrecords
    have hopens := hother.opens h.opens
    obtain ⟨changed, hlength, hlies, hbytes⟩ := hother.lies h.opens h.lies
    refine ⟨changed, hlength, hbytes, ?_⟩
    intro count hcount
    have hmany : (before ++ changed :: after).length < count := by simpa using hcount
    rw [h.scan_setImage hopens, hlies.drain (hopens.sound hopens.start_lt) hmany]

end Files

end FileSystem

/-! ## Every run -/

/-- **Damage is contained.** After any requests to a ring a reader finds the records of the queue; and whatever the data
of the file are overwritten with then, the records in front of the damage are read first and as they were, and where
only bytes of one record are hit, all the others are. -/
theorem damage_is_contained {path : Path} {capacity : Nat} {s : Session} (hbegins : s.Begins path capacity)
    {requests : List Session.Request} (horderly : s.Orderly path requests) {last : FileSystem} {records : List Bytes}
    (hlast : last = (s.run path requests).1.files)
    (hrecords : records = (Queue.run capacity {} ((s.run path requests).2.map Prod.fst)).1.records) :
    ∃ node, (∃ place, last.lookup path = .ok (place, .file node))
      ∧ (∀ count, records.length < count → last.scan path count = .ok (records, .exhausted))
      ∧ last.Contains path node capacity records := by
  subst hlast hrecords
  obtain ⟨node, hreflects⟩ := hbegins.reflects
  have hstores := FileSystem.stores_of_reflects (hreflects.run horderly).1
  exact ⟨node, hstores.lookup, fun _ hcount => hstores.scan hcount, hstores.contains⟩

/-- the first record is dropped, two lie behind its place up to the end of the data, and the last is at their
beginning -/
def turnedRequests : List Session.Request :=
  [.append "a" [1, 2, 3], .append "a" [4, 5], .append "a" [6], .append "a" [7, 8]]

def turnedFiles : FileSystem := (smallSession.run FileSystem.singleName turnedRequests).1.files

/-- the data of the file have become these -/
def turnedImage (data : Bytes) : Image := .ofBytes ((turnedFiles.image 0).head ++ data)

/-- all but the first frame has become a prefix without an end; and the byte of the second record has become another -/
theorem damage_is_contained_turnedRequests :
    smallSession.Begins FileSystem.singleName 9 ∧ smallSession.Orderly FileSystem.singleName turnedRequests
      ∧ (∃ more ending, (turnedFiles.setImage 0 (turnedImage [255, 255, 255, 255, 2, 4, 5, 255, 255])).scan
          FileSystem.singleName 4 = .ok ([4, 5] :: more, ending))
      ∧ ∃ changed : Bytes, changed[0]? = some 60
        ∧ (turnedFiles.setImage 0 (turnedImage [2, 7, 8, 3, 2, 4, 5, 1, 60])).scan FileSystem.singleName 4
          = .ok ([[4, 5], changed, [7, 8]], .exhausted) := by
  have hmade : Session.create {} "a" FileSystem.singleName 9 = (smallSession, .ok ()) := by decide +kernel
  have horderly : smallSession.Orderly FileSystem.singleName turnedRequests := by decide +kernel
  have hrecords : [[4, 5], [6], [7, 8]]
      = (Queue.run 9 {} ((smallSession.run FileSystem.singleName turnedRequests).2.map Prod.fst)).1.records := by
    decide +kernel
  have hlast : turnedFiles = (smallSession.run FileSystem.singleName turnedRequests).1.files := rfl
  obtain ⟨node, ⟨place, hlookup⟩, -, hcontains⟩ := damage_is_contained (.made hmade) horderly hlast hrecords
  have hnode : (turnedFiles.lookup FileSystem.singleName).toOption.map Prod.snd = some (.file 0) := by decide +kernel
  rw [hlookup] at hnode
  obtain rfl : node = 0 := by simpa [Except.toOption] using hnode
  have hfirst : (turnedFiles.image 0).Overwritten (turnedImage [255, 255, 255, 255, 2, 4, 5, 255, 255]) 9
      (· < weight [[4, 5]]) :=
    ⟨by decide +kernel, by decide +kernel, by decide +kernel⟩
  have hsecond : (turnedFiles.image 0).Overwritten (turnedImage [2, 7, 8, 3, 2, 4, 5, 1, 60]) 9
      fun i => i < weight [[4, 5]] + Varint.size 1 ∨ weight [[4, 5]] + frameLength 1 ≤ i :=
    ⟨by decide +kernel, by decide +kernel, by decide +kernel⟩
  obtain ⟨more, ending, hforwards⟩ := hcontains.forwards [[4, 5]] [[6], [7, 8]] rfl _ hfirst 3
  obtain ⟨changed, -, hbytes, halone⟩ := hcontains.alone [[4, 5]] [6] [[7, 8]] rfl _ hsecond
  refine ⟨.made hmade, horderly, ⟨more, ending, hforwards⟩, changed, ?_, halone 4 (by decide)⟩
  rw [(hbytes 0 (by decide)).1]
  decide +kernel

end CircularLog
