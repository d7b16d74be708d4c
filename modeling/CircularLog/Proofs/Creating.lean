/-
New files, and files whose bytes are replaced.

- `FileSystem.lookup_create`: the path of a new file leads to it.
- `Image.opens_blank`: the file that a new ring is made in opens, with both offsets zero.
- `Handle.of_create`: what there is when a ring has been made.
-/
import CircularLog.Proofs.Opening

namespace CircularLog

namespace FileSystem

section Images

variable {fs : FileSystem} {node : Nat} {image : Image} {path : Path}

theorem image_setImage (h : node < fs.images.size) : (fs.setImage node image).image node = image := by
  simp [FileSystem.image, setImage, h]

theorem size_setImage (fs : FileSystem) (node : Nat) (image : Image) :
    (fs.setImage node image).images.size = fs.images.size := by
  simp [setImage]

/-- names do not depend on bytes -/
theorem lookup_setImage (fs : FileSystem) (node : Nat) (image : Image) (path : Path) :
    (fs.setImage node image).lookup path = fs.lookup path := rfl

/-- giving a file the bytes that it has changes nothing -/
theorem setImage_image (fs : FileSystem) (node : Nat) : fs.setImage node (fs.image node) = fs := by
  have hsame : fs.images.setIfInBounds node (fs.image node) = fs.images := by
    apply Array.ext_getElem?
    intro i
    rw [Array.getElem?_setIfInBounds]
    split
    · rename_i heq
      subst heq
      split
      · rename_i hlt
        simp [FileSystem.image, hlt]
      · rename_i hge
        simp [hge]
    · rfl
  simp only [setImage, hsame]

/-- the bytes that are given last stay -/
theorem setImage_setImage (fs : FileSystem) (node : Nat) (image other : Image) :
    (fs.setImage node image).setImage node other = fs.setImage node other := by
  simp only [setImage, Array.setIfInBounds_setIfInBounds]

end Images

/-! ## A new name -/

section Create

variable {fs made : FileSystem} {path : Path} {place next new : Place} {name : Bytes} {entry : Entry} {node : Nat}

/-- the file system with one more entry -/
def enter (fs : FileSystem) (place : Place) (entry : Entry) : FileSystem :=
  { fs with entries := (place, entry) :: fs.entries }

theorem find?_enter_self (hplace : place ≠ []) : (fs.enter place entry).find? place = some entry := by
  have hnonempty : place.isEmpty = false := by simpa using hplace
  simp [find?, enter, hnonempty]

/-- what was there is still there -/
theorem find?_enter (hnew : fs.find? new = none) (hplace : fs.find? place ≠ none) :
    (fs.enter new entry).find? place = fs.find? place := by
  have hne : new ≠ place := by
    rintro rfl
    exact hplace hnew
  simp only [find?, enter]
  split
  · rfl
  · rw [List.find?_cons_of_neg (by simpa using hne)]

theorem step_enter (hnew : fs.find? new = none) (h : fs.step place name = .ok next) :
    (fs.enter new entry).step place name = .ok next := by
  by_cases hdirectory : fs.find? place = some .directory
  · have hsame : (fs.enter new entry).find? place = fs.find? place := find?_enter hnew (by rw [hdirectory]; simp)
    rw [step, if_neg (not_not.2 hdirectory)] at h
    rw [step, hsame, if_neg (not_not.2 hdirectory)]
    by_cases hhere : name = here
    · rwa [if_pos hhere] at h ⊢
    rw [if_neg hhere] at h ⊢
    by_cases habove : name = above
    · rwa [if_pos habove] at h ⊢
    rw [if_neg habove] at h ⊢
    by_cases hlong : maxName < name.length
    · rw [if_pos hlong] at h
      cases h
    rw [if_neg hlong] at h ⊢
    by_cases hnone : (fs.find? (place ++ [name])).isNone
    · rw [if_pos hnone] at h
      cases h
    · rw [find?_enter hnew (by simpa using hnone)]
      exact h
  · rw [step, if_pos hdirectory] at h
    cases h

theorem foldlM_enter (hnew : fs.find? new = none) {names : List Bytes} (h : names.foldlM fs.step place = .ok next) :
    names.foldlM (fs.enter new entry).step place = .ok next := by
  induction names generalizing place with
  | nil => exact h
  | cons name names ih =>
    rw [List.foldlM_cons] at h ⊢
    cases hstep : fs.step place name with
    | error cause =>
      rw [hstep] at h
      cases h
    | ok middle =>
      rw [hstep] at h
      rw [step_enter hnew hstep]
      exact ih h

/-- a vacancy is a name of its own in a directory that is there -/
theorem vacancy_ok (h : fs.vacancy path false = .ok new) :
    checked path = .ok () ∧ path.endsInSlash = false ∧ fs.find? new = none
      ∧ ∃ parent name, path.names.dropLast.foldlM fs.step [] = .ok parent ∧ fs.find? parent = some .directory
        ∧ path.names.getLast? = some name ∧ name ≠ here ∧ name ≠ above ∧ ¬maxName < name.length
        ∧ new = parent ++ [name] := by
  rw [vacancy] at h
  obtain ⟨⟨⟩, hchecked, h⟩ := bind_eq_ok h
  obtain ⟨parent, hparent, h⟩ := bind_eq_ok h
  simp only [bind, Except.bind, pure, Except.pure, throw, throwThe, MonadExceptOf.throw] at h
  by_cases hdirectory : fs.find? parent = some .directory
  · rw [if_neg (not_not.2 hdirectory)] at h
    cases hlast : path.names.getLast? with
    | none => simp [hlast] at h
    | some name =>
      simp only [hlast] at h
      by_cases hdots : name = here ∨ name = above
      · simp [hdots] at h
      rw [if_neg hdots] at h
      by_cases hslash : path.endsInSlash ∧ !false
      · simp [hslash] at h
      rw [if_neg hslash] at h
      by_cases hlong : maxName < name.length
      · simp [hlong] at h
      rw [if_neg hlong] at h
      by_cases hthere : (fs.find? (parent ++ [name])).isSome
      · simp [hthere] at h
      rw [if_neg hthere] at h
      obtain rfl := Except.ok.inj h
      obtain ⟨hhere, habove⟩ := not_or.1 hdots
      exact ⟨hchecked, by simpa using hslash, by simpa using hthere, parent, name, hparent, hdirectory, rfl,
        hhere, habove, hlong, rfl⟩
  · simp [hdirectory] at h

theorem create_ok (h : fs.create path = .ok (made, node)) :
    ∃ new, fs.vacancy path false = .ok new ∧ node = fs.images.size
      ∧ made = { fs.enter new (.file node) with images := fs.images.push .empty } := by
  obtain ⟨new, hvacancy, hmade⟩ := bind_eq_ok h
  obtain ⟨rfl, rfl⟩ := Prod.mk.inj (Except.ok.inj hmade)
  exact ⟨new, hvacancy, rfl, rfl⟩

/-- a path with a vacancy leads nowhere yet -/
theorem lookup_of_vacancy (h : fs.vacancy path false = .ok new) : fs.lookup path = .error (.system .notFound) := by
  obtain ⟨hchecked, -, hnew, parent, name, hparent, hdirectory, hlast, hhere, habove, hlong, rfl⟩ := vacancy_ok h
  have hnames : path.names = path.names.dropLast ++ [name] := by
    rw [List.dropLast_append_getLast? name hlast]
  have hstep : fs.step parent name = .error (.system .notFound) := by
    rw [step, if_neg (not_not.2 hdirectory), if_neg hhere, if_neg habove, if_neg hlong, hnew]
    rfl
  have hwalk : path.names.foldlM fs.step [] = .error (.system .notFound) := by
    rw [hnames, List.foldlM_append, hparent]
    simp only [bind, Except.bind, List.foldlM_cons, hstep]
  unfold lookup
  simp only [hchecked, hwalk, bind, Except.bind]

/-- a name that is entered where a path has its vacancy is what the path leads to -/
theorem lookup_enter_vacancy (hvacancy : fs.vacancy path false = .ok new) (node : Nat) :
    (fs.enter new (.file node)).lookup path = .ok (new, .file node) := by
  obtain ⟨hchecked, hslash, hnew, parent, name, hparent, hdirectory, hlast, hhere, habove, hlong, rfl⟩ :=
    vacancy_ok hvacancy
  have hnames : path.names = path.names.dropLast ++ [name] := by
    rw [List.dropLast_append_getLast? name hlast]
  have hself : (fs.enter (parent ++ [name]) (.file node)).find? (parent ++ [name]) = some (.file node) :=
    find?_enter_self (by simp)
  have hlaststep : (fs.enter (parent ++ [name]) (.file node)).step parent name = .ok (parent ++ [name]) := by
    rw [step, find?_enter hnew (by rw [hdirectory]; simp), if_neg (not_not.2 hdirectory), if_neg hhere, if_neg habove,
      if_neg hlong, hself]
    rfl
  have hwalk : path.names.foldlM (fs.enter (parent ++ [name]) (.file node)).step [] = .ok (parent ++ [name]) := by
    rw [hnames, List.foldlM_append, foldlM_enter hnew hparent]
    simp only [bind, Except.bind, List.foldlM_cons, List.foldlM_nil, hlaststep, pure, Except.pure]
  simp only [lookup, hchecked, hwalk, hself, hslash, bind, Except.bind, pure, Except.pure]
  rfl

/-- the path of a new file leads to it -/
theorem lookup_create (h : fs.create path = .ok (made, node)) :
    ∃ place, made.lookup path = .ok (place, .file node) := by
  obtain ⟨new, hvacancy, rfl, rfl⟩ := create_ok h
  have hlookup := lookup_enter_vacancy hvacancy fs.images.size
  exact ⟨new, hlookup⟩

end Create

end FileSystem

/-! ## A new ring -/

section Blank

variable {capacity : Nat}

theorem Image.head_blank (capacity : Nat) : (Image.blank capacity).head = ControlBlock.encode {} := by
  have hsize : (Image.empty.resize (ControlBlock.size + capacity)).size = ControlBlock.size + capacity :=
    size_resize _ _
  have hlength : (ControlBlock.encode {}).length = ControlBlock.size := ControlBlock.length_encode _
  rw [head, blank, toBytes_write _ _ _ (by rw [hsize, hlength]; omega), ← hlength]
  have hread := take_drop_lay (Image.empty.resize (ControlBlock.size + capacity)).toBytes (ControlBlock.encode {})
    (Nat.zero_le _)
  rwa [List.drop_zero] at hread

theorem Image.size_blank (capacity : Nat) : (Image.blank capacity).size = ControlBlock.size + capacity := by
  have hsize : (Image.empty.resize (ControlBlock.size + capacity)).size = ControlBlock.size + capacity :=
    size_resize _ _
  have hlength : (ControlBlock.encode {}).length = ControlBlock.size := ControlBlock.length_encode _
  rw [blank, size_write _ _ _ (by rw [hsize, hlength]; omega), hsize]

theorem Image.start_blank (capacity : Nat) : (Image.blank capacity).start = 0 := by
  rw [start, number_eq _ (by decide), head_blank]
  decide

theorem Image.stop_blank (capacity : Nat) : (Image.blank capacity).stop = 0 := by
  rw [stop, number_eq _ (by decide), head_blank]
  decide

theorem Image.opens_blank (hpos : 0 < capacity) (hfile : ControlBlock.size + capacity ≤ Image.maxSize) :
    (Image.blank capacity).Opens capacity where
  size := size_blank capacity
  bounded := (size_blank capacity).trans_le hfile
  marked := by
    rw [← mark_head, head_blank]
    decide
  start_lt := by rwa [start_blank]
  stop_lt := by rwa [stop_blank]

/-- when a ring has been made, its path leads to a file that opens and holds nothing -/
theorem Handle.of_create {fs made : FileSystem} {path : Path} {handle : Handle}
    (h : Handle.create fs path capacity = (made, .ok handle)) :
    0 < capacity ∧ (∃ place, made.lookup path = .ok (place, .file handle.node)) ∧ handle.node < made.images.size
      ∧ made.image handle.node = .blank capacity ∧ (Image.blank capacity).Opens capacity
      ∧ handle = { path, node := handle.node, access := .append, capacity, cursor := 0 } := by
  by_cases hsmall : capacity < minCapacity
  · simp [create, hsmall, refuse] at h
  have hpos : 0 < capacity := Nat.lt_of_lt_of_le (by decide) (Nat.le_of_not_lt hsmall)
  rw [create, if_neg hsmall] at h
  by_cases hbound : Word.bound ≤ ControlBlock.size + capacity
  · simp [createFile, hbound, refuse, Except.map] at h
  cases hmake : fs.create path with
  | error cause => simp [createFile, hbound, hmake, refuse, Except.map] at h
  | ok result =>
    obtain ⟨file, node⟩ := result
    by_cases hlong : Image.maxSize < ControlBlock.size + capacity
    · simp [createFile, hbound, hmake, format, hlong, refuse, Except.map] at h
    simp only [createFile, if_neg hbound, hmake, format, if_neg hlong, Except.map, Prod.mk.injEq, Except.ok.injEq] at h
    obtain ⟨rfl, rfl⟩ := h
    obtain ⟨new, -, rfl, rfl⟩ := FileSystem.create_ok hmake
    obtain ⟨place, hlookup⟩ := FileSystem.lookup_create hmake
    have hnode : fs.images.size < (fs.images.push Image.empty).size := by simp
    refine ⟨hpos, ⟨place, ?_⟩, ?_, ?_, Image.opens_blank hpos (Nat.le_of_not_lt hlong), rfl⟩
    · rw [FileSystem.lookup_setImage]
      exact hlookup
    · rw [FileSystem.size_setImage]
      exact hnode
    · exact FileSystem.image_setImage hnode

end Blank

end CircularLog
