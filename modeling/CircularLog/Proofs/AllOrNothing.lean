/-
Making a ring is all or nothing. `Handle.createStaged` makes one in the stages that a new file goes through, each of
which the system may refuse, with any bytes in the file by then; `Handle.create` is the case where nothing is refused
but a length that no file can have. Whatever is refused, only the name that was just entered is taken away again.

- `FileSystem.Unchanged`, `FileSystem.Gains`: no file is touched; one file is new and no other is touched.
- `FileSystem.remove_added`: to take the new name away is to undo what was done for it.
- `Handle.Stage`, `Handle.createStaged`, `Handle.createStaged_cases`: what there is after each way it may end.
- `Handle.Declines`, `Handle.create_error_iff`: what a ring is not made for, and the refusal of it.
- `create_is_all_or_nothing`: all of it, for every file system, path and capacity.
-/
import CircularLog.Proofs.Creating

namespace CircularLog

namespace FileSystem

/-! ## What stays -/

/-- every name leads where it led, and every file has the bytes that it had -/
structure Unchanged (fs left : FileSystem) : Prop where
  entries_eq : left.entries = fs.entries
  image_eq : ∀ node < fs.images.size, left.image node = fs.image node

/-- one file is new, at a place where nothing was, and every other is as it was -/
structure Gains (fs made : FileSystem) (place : Place) (node : Nat) : Prop where
  free : fs.find? place = none
  node_eq : node = fs.images.size
  entries_eq : made.entries = (place, .file node) :: fs.entries
  image_eq : ∀ old < fs.images.size, made.image old = fs.image old
  /-- a path that led somewhere leads there -/
  lookup_eq : ∀ path found, fs.lookup path = .ok found → made.lookup path = .ok found

/-- the file system with bytes that no name leads to -/
def nameless (fs : FileSystem) (image : Image) : FileSystem := { fs with images := fs.images.push image }

/-- the file system with one more file -/
def added (fs : FileSystem) (place : Place) (image : Image) : FileSystem :=
  (fs.enter place (.file fs.images.size)).nameless image

section Stays

variable {fs left : FileSystem} {path : Path} {place : Place} {entry : Entry} {found : Place × Entry} {old : Nat}
  {image : Image}

theorem Unchanged.refl (fs : FileSystem) : fs.Unchanged fs := ⟨rfl, fun _ _ => rfl⟩

/-- where a name leads does not depend on bytes -/
theorem Unchanged.vacancy_eq (h : fs.Unchanged left) (path : Path) (forDirectory : Bool) :
    left.vacancy path forDirectory = fs.vacancy path forDirectory := by
  obtain ⟨entries, images⟩ := left
  obtain rfl := h.entries_eq
  rfl

theorem image_nameless (h : old < fs.images.size) : (fs.nameless image).image old = fs.image old := by
  have hold : old < (fs.images.push image).size := by
    rw [Array.size_push]
    omega
  simp only [FileSystem.image, nameless, Array.getElem?_eq_getElem h, Array.getElem?_eq_getElem hold,
    Array.getElem_push_lt h]

theorem image_nameless_self (fs : FileSystem) (image : Image) : (fs.nameless image).image fs.images.size = image := by
  simp [FileSystem.image, nameless]

/-- bytes that are given to the newest file -/
theorem setImage_nameless (fs : FileSystem) (image other : Image) :
    (fs.nameless image).setImage fs.images.size other = fs.nameless other := by
  simp [setImage, nameless, Array.setIfInBounds, Array.set_push]

theorem unchanged_nameless (fs : FileSystem) (image : Image) : fs.Unchanged (fs.nameless image) :=
  ⟨rfl, fun _ hold => image_nameless hold⟩

theorem lookup_enter (hnew : fs.find? place = none) (h : fs.lookup path = .ok found) :
    (fs.enter place entry).lookup path = .ok found := by
  obtain ⟨⟨⟩, hchecked, h⟩ := bind_eq_ok h
  obtain ⟨reached, hwalk, h⟩ := bind_eq_ok h
  have hthere : fs.find? reached ≠ none := by
    intro hnone
    simp only [hnone] at h
    cases h
  have hsame : (fs.enter place entry).find? reached = fs.find? reached := find?_enter hnew hthere
  unfold lookup
  simp only [hchecked, bind, Except.bind, foldlM_enter hnew hwalk, hsame]
  exact h

theorem create_of_no_vacancy {cause : Cause} (h : fs.vacancy path false = .error cause) :
    fs.create path = .error cause := by
  rw [FileSystem.create, h]
  rfl

theorem create_of_vacancy (h : fs.vacancy path false = .ok place) :
    fs.create path = .ok (fs.added place .empty, fs.images.size) := by
  rw [FileSystem.create, h]
  rfl

theorem image_added_self (fs : FileSystem) (place : Place) (image : Image) :
    (fs.added place image).image fs.images.size = image :=
  image_nameless_self (fs.enter place (.file fs.images.size)) image

theorem setImage_added (fs : FileSystem) (place : Place) (image other : Image) :
    (fs.added place image).setImage fs.images.size other = fs.added place other :=
  setImage_nameless (fs.enter place (.file fs.images.size)) image other

theorem lookup_added (h : fs.vacancy path false = .ok place) (image : Image) :
    (fs.added place image).lookup path = .ok (place, .file fs.images.size) :=
  lookup_enter_vacancy h fs.images.size

theorem gains_added (h : fs.vacancy path false = .ok place) (image : Image) :
    fs.Gains (fs.added place image) place fs.images.size where
  free := (vacancy_ok h).2.2.1
  node_eq := rfl
  entries_eq := rfl
  image_eq := by
    intro old hold
    have hentered : old < (fs.enter place (.file fs.images.size)).images.size := hold
    exact image_nameless hentered
  lookup_eq _ _ hfound := lookup_enter (vacancy_ok h).2.2.1 hfound

/-- the new name is taken away, and no other -/
theorem remove_added (h : fs.vacancy path false = .ok place) (image : Image) :
    (fs.added place image).remove path = .ok (fs.nameless image) := by
  obtain ⟨-, -, hnew, parent, name, -, -, -, -, -, -, hplace⟩ := vacancy_ok h
  have hnonempty : place.isEmpty = false := by simp [hplace]
  have hothers : fs.entries.filter (·.1 != place) = fs.entries := by
    unfold find? at hnew
    rw [hnonempty, if_neg Bool.false_ne_true, Option.map_eq_none_iff, List.find?_eq_none] at hnew
    apply List.filter_eq_self.2
    intro entry hentry
    simpa using hnew entry hentry
  have hentries : (fs.added place image).entries.filter (·.1 != place) = fs.entries := by
    show ((place, Entry.file fs.images.size) :: fs.entries).filter (·.1 != place) = fs.entries
    rw [List.filter_cons_of_neg (by simp), hothers]
  unfold remove
  rw [lookup_added h]
  simp only [bind, Except.bind, pure, Except.pure, hentries]
  rfl

end Stays

end FileSystem

namespace Handle

/-! ## Stage by stage -/

/-- what a new file goes through before it is a ring -/
inductive Stage where
  /-- it is given its length -/
  | length
  /-- and the room for it -/
  | room
  /-- the control block is written -/
  | block
  /-- and mapped -/
  | mapping
deriving DecidableEq, Repr

namespace Stage

def all : List Stage := [.length, .room, .block, .mapping]

/-- the bytes of the file after a stage -/
def apply (capacity : Nat) (image : Image) : Stage → Image
  | .length => image.resize (ControlBlock.size + capacity)
  | .block => image.write 0 (ControlBlock.encode {})
  | .room | .mapping => image

/-- what is refused whatever else happens: a length that no file can have -/
def limit (capacity : Nat) : Stage → Option (Image × Cause)
  | .length => if Image.maxSize < ControlBlock.size + capacity then some (.empty, .lengthOutOfRange) else none
  | _ => none

end Stage

/-- the stages one after another; a mishap is the refusal of a stage, and the bytes that are in the file by then -/
def prepare (mishap : Stage → Option (Image × Cause)) (capacity : Nat) : List Stage → Image → Image × Outcome Unit
  | [], image => (image, .ok ())
  | stage :: rest, image =>
    match (stage.limit capacity).or (mishap stage) with
    | some (left, cause) => (left, refuse (.system none cause))
    | none => prepare mishap capacity rest (stage.apply capacity image)

/-- a new ring, and a handle that appends to it; a file that does not come through all stages is taken away again -/
def createStaged (mishap : Stage → Option (Image × Cause)) (fs : FileSystem) (path : Path) (capacity : Nat) :
    FileSystem × Outcome Handle :=
  if capacity < minCapacity then (fs, refuse (.capacityTooSmall capacity))
  else if Word.bound ≤ ControlBlock.size + capacity then (fs, refuse .capacityOverflow)
  else
    match fs.create path with
    | .error cause => (fs, refuse (.opening cause))
    | .ok (made, node) =>
      match prepare mishap capacity Stage.all (made.image node) with
      | (image, .ok ()) => (made.setImage node image, .ok { path, node, access := .append, capacity, cursor := 0 })
      | (image, .error stop) =>
        let left := made.setImage node image
        ((left.remove path).toOption.getD left, .error stop)

section Staged

variable {fs : FileSystem} {path : Path} {capacity : Nat} {mishap : Stage → Option (Image × Cause)} {image : Image}

/-- nothing is refused but the length: there is none, or a file that holds an empty ring -/
theorem prepare_none (capacity : Nat) :
    prepare (fun _ => none) capacity Stage.all .empty
      = if Image.maxSize < ControlBlock.size + capacity then (.empty, refuse (.system none .lengthOutOfRange))
        else (.blank capacity, .ok ()) := by
  by_cases hlong : Image.maxSize < ControlBlock.size + capacity
  · simp only [Stage.all, prepare, Stage.limit, if_pos hlong, Option.some_or]
  · simp only [Stage.all, prepare, Stage.limit, if_neg hlong, Option.none_or, Stage.apply, Image.blank]

/-- where every stage is done, it is as if there could be no mishap -/
theorem prepare_of_ok {stages : List Stage} {old : Image} (h : prepare mishap capacity stages old = (image, .ok ())) :
    prepare (fun _ => none) capacity stages old = (image, .ok ()) := by
  induction stages generalizing old with
  | nil => exact h
  | cons stage rest ih =>
    unfold prepare at h ⊢
    cases hrefused : (stage.limit capacity).or (mishap stage) with
    | some refused =>
      simp only [hrefused, refuse] at h
      cases (Prod.mk.inj h).2
    | none =>
      obtain ⟨hlimit, -⟩ := Option.or_eq_none_iff.1 hrefused
      simp only [hrefused] at h
      simp only [hlimit, Option.or_none]
      exact ih h

theorem prepare_ok (h : prepare mishap capacity Stage.all .empty = (image, .ok ())) :
    ControlBlock.size + capacity ≤ Image.maxSize ∧ image = .blank capacity := by
  have hdone := prepare_of_ok h
  rw [prepare_none] at hdone
  split at hdone
  · cases (Prod.mk.inj hdone).2
  · rename_i hfits
    exact ⟨Nat.le_of_not_lt hfits, (Prod.mk.inj hdone).1.symm⟩

theorem createStaged_eq (mishap : Stage → Option (Image × Cause)) (fs : FileSystem) (path : Path) (capacity : Nat) :
    createStaged mishap fs path capacity
      = if capacity < minCapacity then (fs, refuse (.capacityTooSmall capacity))
        else if Word.bound ≤ ControlBlock.size + capacity then (fs, refuse .capacityOverflow)
        else match fs.vacancy path false with
          | .error cause => (fs, refuse (.opening cause))
          | .ok place => match prepare mishap capacity Stage.all .empty with
            | (image, .ok ()) =>
              (fs.added place image, .ok { path, node := fs.images.size, access := .append, capacity, cursor := 0 })
            | (image, .error stop) => (fs.nameless image, .error stop) := by
  unfold createStaged
  by_cases hsmall : capacity < minCapacity
  · rw [if_pos hsmall, if_pos hsmall]
  by_cases hbound : Word.bound ≤ ControlBlock.size + capacity
  · rw [if_neg hsmall, if_neg hsmall, if_pos hbound, if_pos hbound]
  rw [if_neg hsmall, if_neg hsmall, if_neg hbound, if_neg hbound]
  cases hvacancy : fs.vacancy path false with
  | error cause =>
    simp only [FileSystem.create_of_no_vacancy hvacancy]
  | ok place =>
    simp only [FileSystem.create_of_vacancy hvacancy, FileSystem.image_added_self, FileSystem.setImage_added]
    rcases prepare mishap capacity Stage.all .empty with ⟨image, stop | ⟨⟩⟩
    · simp only [FileSystem.remove_added hvacancy, Except.toOption, Option.getD_some]
    · rfl

/-- the ring that is made in practice -/
theorem createStaged_none (fs : FileSystem) (path : Path) (capacity : Nat) :
    createStaged (fun _ => none) fs path capacity = create fs path capacity := by
  unfold createStaged create createFile
  by_cases hsmall : capacity < minCapacity
  · rw [if_pos hsmall, if_pos hsmall]
  by_cases hbound : Word.bound ≤ ControlBlock.size + capacity
  · rw [if_neg hsmall, if_neg hsmall, if_pos hbound, if_pos hbound]
    rfl
  rw [if_neg hsmall, if_neg hsmall, if_neg hbound, if_neg hbound]
  cases hvacancy : fs.vacancy path false with
  | error cause =>
    rw [FileSystem.create_of_no_vacancy hvacancy]
    rfl
  | ok place =>
    simp only [FileSystem.create_of_vacancy hvacancy, FileSystem.image_added_self, FileSystem.setImage_added,
      prepare_none, format]
    by_cases hlong : Image.maxSize < ControlBlock.size + capacity
    · simp only [if_pos hlong, refuse, Except.map]
    · simp only [if_neg hlong, Except.map]

/-- what it may come to: nothing is done, or bytes are left that no name leads to, or there is the new ring -/
theorem createStaged_cases (mishap : Stage → Option (Image × Cause)) (fs : FileSystem) (path : Path) (capacity : Nat) :
    (∃ stop, createStaged mishap fs path capacity = (fs, .error stop))
      ∨ (∃ image stop, createStaged mishap fs path capacity = (fs.nameless image, .error stop))
      ∨ (minCapacity ≤ capacity ∧ ControlBlock.size + capacity ≤ Image.maxSize
        ∧ ∃ place, fs.vacancy path false = .ok place
          ∧ createStaged mishap fs path capacity = (fs.added place (.blank capacity),
              .ok { path, node := fs.images.size, access := .append, capacity, cursor := 0 })) := by
  rw [createStaged_eq]
  by_cases hsmall : capacity < minCapacity
  · rw [if_pos hsmall]
    exact .inl ⟨_, rfl⟩
  by_cases hbound : Word.bound ≤ ControlBlock.size + capacity
  · rw [if_neg hsmall, if_pos hbound]
    exact .inl ⟨_, rfl⟩
  rw [if_neg hsmall, if_neg hbound]
  cases hvacancy : fs.vacancy path false with
  | error cause => exact .inl ⟨_, rfl⟩
  | ok place =>
    rcases hprepare : prepare mishap capacity Stage.all .empty with ⟨image, stop | ⟨⟩⟩
    · exact .inr (.inl ⟨image, stop, rfl⟩)
    · obtain ⟨hfits, rfl⟩ := prepare_ok hprepare
      exact .inr (.inr ⟨Nat.le_of_not_lt hsmall, hfits, place, rfl, rfl⟩)

/-- whatever is refused -/
theorem createStaged_error {stop : Stop} (h : (createStaged mishap fs path capacity).2 = .error stop) :
    fs.Unchanged (createStaged mishap fs path capacity).1 := by
  obtain ⟨_, hdone⟩ | ⟨image, _, hdone⟩ | ⟨-, -, place, -, hdone⟩ := createStaged_cases mishap fs path capacity
  · rw [hdone]
    exact .refl fs
  · rw [hdone]
    exact FileSystem.unchanged_nameless fs image
  · rw [hdone] at h
    cases h

/-- and if nothing is -/
theorem createStaged_ok {handle : Handle} (h : (createStaged mishap fs path capacity).2 = .ok handle) :
    minCapacity ≤ capacity ∧ ControlBlock.size + capacity ≤ Image.maxSize
      ∧ handle = { path, node := fs.images.size, access := .append, capacity, cursor := 0 }
      ∧ ∃ place, fs.vacancy path false = .ok place
        ∧ (createStaged mishap fs path capacity).1 = fs.added place (.blank capacity) := by
  obtain ⟨_, hdone⟩ | ⟨image, _, hdone⟩ | ⟨hroom, hfits, place, hvacancy, hdone⟩ :=
    createStaged_cases mishap fs path capacity
  · rw [hdone] at h
    cases h
  · rw [hdone] at h
    cases h
  · rw [hdone] at h ⊢
    exact ⟨hroom, hfits, (Except.ok.inj h).symm, place, hvacancy, rfl⟩

/-! ## What a ring is not made for -/

/-- why no ring is made, and what the refusal is; of two reasons the one found first -/
inductive Declines (fs : FileSystem) (path : Path) (capacity : Nat) : Refusal → Prop where
  | small (hsmall : capacity < minCapacity) : Declines fs path capacity (.capacityTooSmall capacity)
  | overflow (hroom : minCapacity ≤ capacity) (hbound : Word.bound ≤ ControlBlock.size + capacity) :
      Declines fs path capacity .capacityOverflow
  /-- a path where something is already, or where nothing can be -/
  | path {cause : Cause} (hroom : minCapacity ≤ capacity) (hbound : ControlBlock.size + capacity < Word.bound)
      (hvacancy : fs.vacancy path false = .error cause) : Declines fs path capacity (.opening cause)
  /-- a length that no file can have -/
  | length {place : Place} (hroom : minCapacity ≤ capacity) (hbound : ControlBlock.size + capacity < Word.bound)
      (hvacancy : fs.vacancy path false = .ok place) (hlong : Image.maxSize < ControlBlock.size + capacity) :
      Declines fs path capacity (.system none .lengthOutOfRange)

theorem create_eq (fs : FileSystem) (path : Path) (capacity : Nat) :
    create fs path capacity
      = if capacity < minCapacity then (fs, refuse (.capacityTooSmall capacity))
        else if Word.bound ≤ ControlBlock.size + capacity then (fs, refuse .capacityOverflow)
        else match fs.vacancy path false with
          | .error cause => (fs, refuse (.opening cause))
          | .ok place =>
            if Image.maxSize < ControlBlock.size + capacity then
              (fs.nameless .empty, refuse (.system none .lengthOutOfRange))
            else (fs.added place (.blank capacity),
              .ok { path, node := fs.images.size, access := .append, capacity, cursor := 0 }) := by
  rw [← createStaged_none, createStaged_eq, prepare_none]
  by_cases hlong : Image.maxSize < ControlBlock.size + capacity
  · simp only [if_pos hlong, refuse]
  · simp only [if_neg hlong]

theorem create_error_iff {stop : Stop} :
    (create fs path capacity).2 = .error stop ↔ ∃ r, stop = .refused r ∧ Declines fs path capacity r := by
  rw [create_eq]
  constructor
  · intro h
    by_cases hsmall : capacity < minCapacity
    · rw [if_pos hsmall] at h
      exact ⟨_, (Except.error.inj h).symm, .small hsmall⟩
    by_cases hbound : Word.bound ≤ ControlBlock.size + capacity
    · rw [if_neg hsmall, if_pos hbound] at h
      exact ⟨_, (Except.error.inj h).symm, .overflow (Nat.le_of_not_lt hsmall) hbound⟩
    rw [if_neg hsmall, if_neg hbound] at h
    cases hvacancy : fs.vacancy path false with
    | error cause =>
      simp only [hvacancy] at h
      exact ⟨_, (Except.error.inj h).symm, .path (Nat.le_of_not_lt hsmall) (Nat.lt_of_not_le hbound) hvacancy⟩
    | ok place =>
      simp only [hvacancy] at h
      by_cases hlong : Image.maxSize < ControlBlock.size + capacity
      · rw [if_pos hlong] at h
        exact ⟨_, (Except.error.inj h).symm, .length (Nat.le_of_not_lt hsmall) (Nat.lt_of_not_le hbound) hvacancy hlong⟩
      · rw [if_neg hlong] at h
        cases h
  · rintro ⟨r, rfl, hdeclines⟩
    cases hdeclines with
    | small hsmall =>
      rw [if_pos hsmall]
      rfl
    | overflow hroom hbound =>
      rw [if_neg (Nat.not_lt.2 hroom), if_pos hbound]
      rfl
    | path hroom hbound hvacancy =>
      simp only [if_neg (Nat.not_lt.2 hroom), if_neg (Nat.not_le.2 hbound), hvacancy]
      rfl
    | length hroom hbound hvacancy hlong =>
      simp only [if_neg (Nat.not_lt.2 hroom), if_neg (Nat.not_le.2 hbound), hvacancy, if_pos hlong]
      rfl

/-- a free path and a capacity that is neither too small nor too large are all that is needed -/
theorem create_ok_of_vacancy {place : Place} (hroom : minCapacity ≤ capacity)
    (hfile : ControlBlock.size + capacity ≤ Image.maxSize) (hvacancy : fs.vacancy path false = .ok place) :
    ∃ handle, (create fs path capacity).2 = .ok handle := by
  have hbound : ¬Word.bound ≤ ControlBlock.size + capacity := by
    have hlongest : Image.maxSize < Word.bound := by decide
    omega
  rw [create_eq]
  simp only [if_neg (Nat.not_lt.2 hroom), if_neg hbound, hvacancy, if_neg (Nat.not_lt.2 hfile)]
  exact ⟨_, rfl⟩

end Staged

/-! ## The new ring -/

section Made

variable {fs : FileSystem} {path : Path} {place : Place} {capacity : Nat} {handle : Handle}

/-- a control block, and zeros behind it -/
theorem toBytes_blank (capacity : Nat) :
    (Image.blank capacity).toBytes = ControlBlock.encode {} ++ List.replicate capacity 0 := by
  have hzeros : (Image.empty.resize (ControlBlock.size + capacity)).toBytes
      = List.replicate (ControlBlock.size + capacity) 0 := by
    have hempty : Image.empty.size = 0 := rfl
    unfold Image.resize Image.toBytes
    rw [Image.data_pad, hempty, Nat.min_zero, Nat.sub_zero]
    rfl
  have hlength : (ControlBlock.encode {}).length = ControlBlock.size := ControlBlock.length_encode _
  have hwithin : 0 + (ControlBlock.encode {}).length ≤ (Image.empty.resize (ControlBlock.size + capacity)).size := by
    rw [Image.size_resize, hlength]
    omega
  rw [Image.blank, Image.toBytes_write _ _ _ hwithin, hzeros, lay, hlength, List.take_zero, List.nil_append,
    Nat.zero_add, List.drop_replicate, Nat.add_sub_cancel_left]

/-- a ring that holds nothing, before it is written to -/
theorem sound_blank (hpos : 0 < capacity) (hfile : ControlBlock.size + capacity ≤ Image.maxSize) :
    ({ image := .blank capacity, capacity, cursor := 0 } : Ring).Sound :=
  (Image.opens_blank hpos hfile).sound hpos

theorem used_blank (hpos : 0 < capacity) (hfile : ControlBlock.size + capacity ≤ Image.maxSize) :
    ({ image := .blank capacity, capacity, cursor := 0 } : Ring).used = .ok 0 := by
  have hload : ({ image := .blank capacity, capacity, cursor := 0 } : Ring).load = 0 := by
    rw [Ring.load, Image.start_blank, Image.stop_blank]
    exact (Circle.way_eq_zero_iff hpos hpos).2 rfl
  rw [Ring.used_eq (sound_blank hpos hfile).toOpens, hload]

theorem record_blank (hpos : 0 < capacity) (hfile : ControlBlock.size + capacity ≤ Image.maxSize) :
    ({ image := .blank capacity, capacity, cursor := 0 } : Ring).record
      = .ok ({ image := .blank capacity, capacity, cursor := 0 }, none) := by
  rw [Ring.record_eq (sound_blank hpos hfile), Image.stop_blank]
  exact if_pos rfl

/-- what there is when a ring has been made -/
structure Made (fs made : FileSystem) (path : Path) (capacity : Nat) (handle : Handle) : Prop where
  handle_eq : handle = { path, node := fs.images.size, access := .append, capacity, cursor := 0 }
  /-- one new file, which is where the path leads -/
  gains : ∃ place, fs.Gains made place handle.node ∧ made.lookup path = .ok (place, .file handle.node)
  size_eq : (made.image handle.node).size = ControlBlock.size + capacity
  bytes_eq : (made.image handle.node).toBytes = ControlBlock.encode {} ++ List.replicate capacity 0
  /-- it opens in either mode, with the capacity that was asked for and without a record -/
  opens : ∀ access, ∃ other, openRing made path access = .ok other ∧ other.access = access ∧ other.node = handle.node
    ∧ other.capacity = capacity ∧ (other.ring made).used = .ok 0
    ∧ (other.ring made).record = .ok (other.ring made, none)

theorem made_added (hroom : minCapacity ≤ capacity) (hfile : ControlBlock.size + capacity ≤ Image.maxSize)
    (hvacancy : fs.vacancy path false = .ok place) :
    Made fs (fs.added place (.blank capacity)) path capacity
      { path, node := fs.images.size, access := .append, capacity, cursor := 0 } where
  handle_eq := rfl
  gains := ⟨place, FileSystem.gains_added hvacancy _, FileSystem.lookup_added hvacancy _⟩
  size_eq := by
    rw [FileSystem.image_added_self, Image.size_blank]
  bytes_eq := by
    rw [FileSystem.image_added_self, toBytes_blank]
  opens := by
    intro access
    have hpos : 0 < capacity := Nat.lt_of_lt_of_le (by decide) hroom
    have himage : (fs.added place (.blank capacity)).image fs.images.size = .blank capacity :=
      FileSystem.image_added_self fs place _
    have hopens : ((fs.added place (.blank capacity)).image fs.images.size).Opens capacity := by
      rw [himage]
      exact Image.opens_blank hpos hfile
    have hopen := openRing_eq_ok (FileSystem.lookup_added hvacancy (.blank capacity)) hopens access
    rw [himage, Image.start_blank] at hopen
    have hring : Handle.ring { path, node := fs.images.size, access, capacity, cursor := 0 }
          (fs.added place (.blank capacity))
        = { image := .blank capacity, capacity, cursor := 0 } := by
      rw [Handle.ring, himage]
    refine ⟨_, hopen, rfl, rfl, rfl, ?_, ?_⟩
    · rw [hring]
      exact used_blank hpos hfile
    · rw [hring]
      exact record_blank hpos hfile

end Made

/-! ## All or nothing -/

section Outcomes

variable {fs : FileSystem} {path : Path} {capacity : Nat}

/-- how the making of a ring may come out: the file system afterwards, and the handle or the refusal -/
structure AllOrNothing (fs : FileSystem) (path : Path) (capacity : Nat) (outcome : FileSystem × Outcome Handle) :
    Prop where
  nothing : ∀ stop, outcome.2 = .error stop → fs.Unchanged outcome.1
  /-- and wherever a ring could have been made, it can be made then -/
  later : ∀ stop, outcome.2 = .error stop → ∀ other room, minCapacity ≤ room →
    ControlBlock.size + room ≤ Image.maxSize →
    (∃ place, fs.vacancy other false = .ok place) → ∃ handle, (create outcome.1 other room).2 = .ok handle
  all : ∀ handle, outcome.2 = .ok handle → Made fs outcome.1 path capacity handle

theorem allOrNothing_createStaged (mishap : Stage → Option (Image × Cause)) (fs : FileSystem) (path : Path)
    (capacity : Nat) :
    AllOrNothing fs path capacity (createStaged mishap fs path capacity) where
  nothing _ h := createStaged_error h
  later := by
    rintro stop h other room hroom hfile ⟨place, hvacancy⟩
    apply create_ok_of_vacancy hroom hfile
    rw [(createStaged_error h).vacancy_eq, hvacancy]
  all := by
    intro handle h
    obtain ⟨hroom, hfile, rfl, place, hvacancy, hadded⟩ := createStaged_ok h
    rw [hadded]
    exact made_added hroom hfile hvacancy

theorem capacityOfFileSize_eq_ok_iff {size : Nat} :
    capacityOfFileSize size = .ok capacity ↔ minCapacity ≤ capacity ∧ ControlBlock.size + capacity = size := by
  unfold capacityOfFileSize
  split
  · rename_i hsmall
    constructor
    · intro h
      cases h
    · rintro ⟨hroom, hsum⟩
      omega
  · rename_i hroom
    rw [Except.ok.injEq]
    omega

/-- where something is already, nothing is done at all -/
theorem create_of_lookup {found : Place × Entry} (h : fs.lookup path = .ok found) :
    (create fs path capacity).1 = fs ∧ ∃ stop, (create fs path capacity).2 = .error stop := by
  rw [create_eq]
  split
  · exact ⟨rfl, _, rfl⟩
  split
  · exact ⟨rfl, _, rfl⟩
  cases hvacancy : fs.vacancy path false with
  | error cause => exact ⟨rfl, _, rfl⟩
  | ok place =>
    rw [FileSystem.lookup_of_vacancy hvacancy] at h
    cases h

/-- what making a ring of this capacity comes to -/
structure Creates (fs : FileSystem) (path : Path) (capacity : Nat) : Prop where
  outcome : AllOrNothing fs path capacity (create fs path capacity)
  /-- the same if the system refuses any stage, with whatever is in the file by then -/
  staged : ∀ mishap, AllOrNothing fs path capacity (createStaged mishap fs path capacity)
  staged_none : createStaged (fun _ => none) fs path capacity = create fs path capacity
  declined_iff : ∀ stop, (create fs path capacity).2 = .error stop
    ↔ ∃ r, stop = .refused r ∧ Declines fs path capacity r
  existing : ∀ found, fs.lookup path = .ok found →
    (create fs path capacity).1 = fs ∧ ∃ stop, (create fs path capacity).2 = .error stop
  /-- the capacity for a file of a given size makes a file of exactly that size -/
  sized_iff : ∀ size, capacityOfFileSize size = .ok capacity
    ↔ minCapacity ≤ capacity ∧ ControlBlock.size + capacity = size
  sized : ∀ size handle, capacityOfFileSize size = .ok capacity → (create fs path capacity).2 = .ok handle →
    ((create fs path capacity).1.image handle.node).size = size

end Outcomes

end Handle

/-- **Making a ring is all or nothing.** Whatever the files, the path and the capacity: if it is refused, every name and
every file is as it was, and a ring can be made later wherever one could have been made. If it is not, there is exactly
one new file, of the control block's length and the capacity together, which opens in either mode as an empty ring. -/
theorem create_is_all_or_nothing (fs : FileSystem) (path : Path) (capacity : Nat) :
    Handle.Creates fs path capacity := by
  have houtcome : Handle.AllOrNothing fs path capacity (Handle.create fs path capacity) := by
    rw [← Handle.createStaged_none]
    exact Handle.allOrNothing_createStaged _ fs path capacity
  exact
    { outcome := houtcome
      staged := fun mishap => Handle.allOrNothing_createStaged mishap fs path capacity
      staged_none := Handle.createStaged_none fs path capacity
      declined_iff := fun _ => Handle.create_error_iff
      existing := fun _ hfound => Handle.create_of_lookup hfound
      sized_iff := fun _ => Handle.capacityOfFileSize_eq_ok_iff
      sized := by
        intro size handle hsized hmade
        rw [(houtcome.all handle hmade).size_eq]
        exact (Handle.capacityOfFileSize_eq_ok_iff.1 hsized).2 }

end CircularLog
