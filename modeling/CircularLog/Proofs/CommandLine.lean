/-
The command line appends lines and prints them. Each line of the input is a record, and what is printed afterwards is
the longest run of newest records, those from before and the lines, that leaves a byte of the circle free.

- `Command.lines`, `Input.lines`: the lines of a text, and of an input that may break off.
- `Command.appendLines_eq`: the loop over the bytes appends the lines, one after another.
- `Ring.Holds.appendInput`: appending the lines keeps the longest suffix.
- `FileSystem.Offers`: what the command finds, a ring file after any requests or none at all.
- `append_then_read`: an append and a read after it.
-/
import CircularLog.Proofs.Printing
import CircularLog.Proofs.Refinement

namespace CircularLog

namespace Command

/-! ## Lines -/

/-- the parts of a text between its line breaks; what follows the last of them is a line only if it has a byte -/
def lines (text : Bytes) : List Bytes :=
  let parts := text.splitOn lineBreak
  parts.dropLast ++ (parts.getLast?.filter (· ≠ [])).toList

section Lines

variable {front : Bytes}

theorem splitOn_front (h : lineBreak ∉ front) (rest : Bytes) :
    (front ++ lineBreak :: rest).splitOn lineBreak = front :: rest.splitOn lineBreak := by
  apply List.splitOnP_append_cons_of_forall_mem
  · intro b hb
    simpa using ne_of_mem_of_not_mem hb h
  · simp

theorem lines_front (h : lineBreak ∉ front) (rest : Bytes) :
    lines (front ++ lineBreak :: rest) = front :: lines rest := by
  have hparts : rest.splitOn lineBreak ≠ [] := List.splitOnP_ne_nil _ _
  simp only [lines, splitOn_front h, List.dropLast_cons_of_ne_nil hparts, List.getLast?_cons_of_ne_nil hparts,
    List.cons_append]

theorem splitOn_last (h : lineBreak ∉ front) : front.splitOn lineBreak = [front] := by
  apply List.splitOnP_eq_singleton
  intro b hb
  simpa using ne_of_mem_of_not_mem hb h

/-- without a line break there is one line, or none where there is no byte -/
theorem lines_last (h : lineBreak ∉ front) : lines front = if front.isEmpty then [] else [front] := by
  cases front with
  | nil => rfl
  | cons b front => simp [lines, splitOn_last h]

end Lines

/-- the parts of a text that a line break follows -/
def wholeLines (text : Bytes) : List Bytes := (text.splitOn lineBreak).dropLast

section WholeLines

variable {front : Bytes}

theorem wholeLines_front (h : lineBreak ∉ front) (rest : Bytes) :
    wholeLines (front ++ lineBreak :: rest) = front :: wholeLines rest := by
  have hparts : rest.splitOn lineBreak ≠ [] := List.splitOnP_ne_nil _ _
  rw [wholeLines, splitOn_front h, List.dropLast_cons_of_ne_nil hparts, wholeLines]

theorem wholeLines_last (h : lineBreak ∉ front) : wholeLines front = [] := by
  rw [wholeLines, splitOn_last h, List.dropLast_singleton]

end WholeLines

end Command

/-- the lines that are read of an input; where it breaks off, what follows its last line break is none -/
def Input.lines (input : Input) : List Bytes :=
  if input.broken.isSome then Command.wholeLines input.bytes else Command.lines input.bytes

/-- what reading the input comes to, after its lines -/
def Input.ending (input : Input) : Outcome Unit := input.broken.elim (.ok ()) fun cause => refuse (.input cause)

theorem Input.lines_front {front : Bytes} (h : Command.lineBreak ∉ front) (rest : Bytes) (broken : Option Cause) :
    Input.lines { bytes := front ++ Command.lineBreak :: rest, broken }
      = front :: Input.lines { bytes := rest, broken } := by
  simp only [Input.lines, Command.lines_front h, Command.wholeLines_front h]
  split <;> rfl

/-! ## Appending lines -/

namespace Ring

/-- appends one record after another, until one is refused -/
def appendEach : Ring → List Bytes → Ring × Outcome Unit
  | r, [] => (r, .ok ())
  | r, payload :: rest =>
    match r.append payload with
    | (r, .error stop) => (r, .error stop)
    | (r, .ok ()) => r.appendEach rest

/-- appends the lines of an input, and comes to the input's end -/
def appendInput (r : Ring) (input : Input) : Ring × Outcome Unit :=
  match r.appendEach input.lines with
  | (r, .error stop) => (r, .error stop)
  | (r, .ok ()) => (r, input.ending)

end Ring

section Append

variable {r : Ring} {line text : Bytes} {records accepted : List Bytes}

/-- one more record behind the longest suffix of those before it -/
theorem Ring.Holds.append_longest {payload : Bytes} (h : r.Holds records)
    (hlongest : Queue.Longest r.capacity records accepted) (hfits : frameLength payload.length < r.capacity) :
    ∃ r₁ kept, r.append payload = (r₁, .ok ()) ∧ r₁.capacity = r.capacity ∧ r₁.Holds kept
      ∧ Queue.Longest r.capacity kept (accepted ++ [payload]) := by
  obtain ⟨r₁, happend, hcapacity, hholds⟩ := h.append hfits
  exact ⟨r₁, _, happend, hcapacity, hholds, hlongest.append hfits⟩

/-- the loop over the bytes appends the lines, of which the first has been read in part -/
theorem Command.appendLines_eq (broken : Option Cause) (hline : Command.lineBreak ∉ line.reverse) :
    Command.appendLines broken r line text = r.appendInput { bytes := line.reverse ++ text, broken } := by
  -- over the text, as the lines are read
  induction text generalizing r line with
  | nil =>
    rw [List.append_nil]
    cases broken with
    | some cause =>
      have hlines : Input.lines { bytes := line.reverse, broken := some cause } = [] := Command.wholeLines_last hline
      rw [Command.appendLines, Ring.appendInput, hlines]
      rfl
    | none =>
      have hlines : Input.lines { bytes := line.reverse } = if line.isEmpty then [] else [line.reverse] := by
        rw [← List.isEmpty_reverse]
        exact Command.lines_last hline
      rw [Command.appendLines, Ring.appendInput, hlines]
      by_cases hempty : line.isEmpty
      · simp only [if_pos hempty, Ring.appendEach]
        rfl
      · simp only [if_neg hempty, Ring.appendEach]
        rcases r.append line.reverse with ⟨r₁, stop | ⟨⟩⟩ <;> rfl
  | cons b text ih =>
    by_cases hbreak : b = Command.lineBreak
    · subst hbreak
      have hnothing : Command.lineBreak ∉ ([] : Bytes).reverse := List.not_mem_nil
      rw [Command.appendLines, if_pos rfl, Ring.appendInput, Input.lines_front hline, Ring.appendEach]
      rcases r.append line.reverse with ⟨r₁, stop | ⟨⟩⟩
      · rfl
      · exact ih hnothing
    · have hgrown : (b :: line).reverse ++ text = line.reverse ++ b :: text := by
        rw [List.reverse_cons, List.append_assoc, List.singleton_append]
      have hnobreak : Command.lineBreak ∉ (b :: line).reverse := by
        rw [List.reverse_cons, List.mem_append, List.mem_singleton]
        rintro (hmem | hself)
        · exact hline hmem
        · exact hbreak hself.symm
      rw [Command.appendLines, if_neg hbreak, ih hnobreak, hgrown]

/-- records that fit are appended, all of them -/
theorem Ring.Holds.appendEach {payloads : List Bytes} (h : r.Holds records)
    (hlongest : Queue.Longest r.capacity records accepted)
    (hfits : ∀ part ∈ payloads, frameLength part.length < r.capacity) :
    ∃ r₁ kept, r.appendEach payloads = (r₁, .ok ()) ∧ r₁.capacity = r.capacity ∧ r₁.Holds kept
      ∧ Queue.Longest r.capacity kept (accepted ++ payloads) := by
  induction payloads generalizing r records accepted with
  | nil =>
    rw [List.append_nil]
    exact ⟨r, records, rfl, rfl, h, hlongest⟩
  | cons payload rest ih =>
    rw [List.forall_mem_cons] at hfits
    obtain ⟨r₁, kept, happend, hcapacity, hholds, hkept⟩ := h.append_longest hlongest hfits.1
    rw [← hcapacity] at hkept hfits
    obtain ⟨r₂, last, heach, hcapacity', hholds', hlast⟩ := ih hholds hkept hfits.2
    refine ⟨r₂, last, ?_, hcapacity'.trans hcapacity, hholds', ?_⟩
    · rw [Ring.appendEach, happend]
      exact heach
    · rw [← hcapacity]
      simpa using hlast

/-- the lines of a text, if they fit -/
theorem Ring.Holds.appendInput (h : r.Holds records) (hlongest : Queue.Longest r.capacity records accepted)
    (hfits : ∀ line ∈ Command.lines text, frameLength line.length < r.capacity) :
    ∃ r₁ kept, r.appendInput { bytes := text } = (r₁, .ok ()) ∧ r₁.capacity = r.capacity ∧ r₁.Holds kept
      ∧ Queue.Longest r.capacity kept (accepted ++ Command.lines text) := by
  obtain ⟨r₁, kept, heach, hkept⟩ := h.appendEach hlongest hfits
  have hlines : Input.lines { bytes := text } = Command.lines text := rfl
  refine ⟨r₁, kept, ?_, hkept⟩
  rw [Ring.appendInput, hlines, heach]
  rfl

/-- a ring holds the longest suffix of what it holds -/
theorem Ring.Holds.longest (h : r.Holds records) : Queue.Longest r.capacity records records where
  suffix := List.suffix_rfl
  weight_lt := h.lies.weight_lt
  longest _ hsuffix _ := hsuffix

end Append

/-! ## The files of the command line -/

namespace FileSystem

/-- the path leads to a ring file that holds the records -/
structure Stores (fs : FileSystem) (path : Path) (node capacity : Nat) (records : List Bytes) : Prop where
  lookup : ∃ place, fs.lookup path = .ok (place, .file node)
  opens : (fs.image node).Opens capacity
  lies : (fs.image node).Lies capacity (fs.image node).start records

/-- what is found under a path: a ring file, after any requests to the handles on it, with the records of the queue, or
no file, where one can be made, and a size to make it of -/
inductive Offers (path : Path) : Option Nat → Nat → FileSystem → List Bytes → Prop
  | kept {size : Option Nat} {capacity : Nat} {s : Session} {requests : List Session.Request} :
      s.Begins path capacity → s.Orderly path requests →
      Offers path size capacity (s.run path requests).1.files
        (Queue.run capacity {} ((s.run path requests).2.map Prod.fst)).1.records
  | missing {size node : Nat} {fs made : FileSystem} :
      fs.create path = .ok (made, node) → ControlBlock.size + Handle.minCapacity ≤ size → size ≤ Image.maxSize →
      Offers path (some size) (size - ControlBlock.size) fs []

section Files

variable {fs made : FileSystem} {path : Path} {node capacity cursor size : Nat} {records kept : List Bytes} {r : Ring}

theorem Stores.holds (h : fs.Stores path node capacity records) (hcursor : cursor < capacity) :
    ({ image := fs.image node, capacity, cursor } : Ring).Holds records :=
  ⟨⟨h.opens, hcursor⟩, h.lies⟩

/-- the file has been given the bytes of a ring -/
theorem Stores.setImage (h : fs.Stores path node capacity records) (hholds : r.Holds kept)
    (hcapacity : r.capacity = capacity) : (fs.setImage node r.image).Stores path node capacity kept := by
  subst hcapacity
  have himage : (fs.setImage node r.image).image node = r.image := image_setImage (node_lt_of_opens h.opens)
  refine ⟨?_, ?_, ?_⟩
  · rw [lookup_setImage]
    exact h.lookup
  · rw [himage]
    exact hholds.toOpens
  · rw [himage]
    exact hholds.lies

theorem stores_of_reflects {s : Session} {q : Queue} (h : s.Reflects path node capacity q) :
    s.files.Stores path node capacity q.records :=
  ⟨h.lookup, h.content.holds.toOpens, h.content.holds.lies⟩

/-! ### A file that is missing -/

/-- where a file can be made, none is found -/
theorem lookup_of_create (h : fs.create path = .ok (made, node)) : fs.lookup path = .error (.system .notFound) := by
  obtain ⟨new, hvacancy, -, -⟩ := create_ok h
  exact lookup_of_vacancy hvacancy

/-- a file that is made for a ring holds nothing -/
theorem stores_create (h : fs.create path = .ok (made, node)) (hcapacity : Handle.minCapacity ≤ capacity)
    (hfile : ControlBlock.size + capacity ≤ Image.maxSize) :
    ∃ formatted, Handle.create fs path capacity
        = (formatted, .ok { path, node, access := .append, capacity, cursor := 0 })
      ∧ formatted.Stores path node capacity [] := by
  have hbound : ¬Word.bound ≤ ControlBlock.size + capacity := by
    simp only [Word.bound, Image.maxSize] at hfile ⊢
    omega
  have hcreate : Handle.create fs path capacity
      = (made.setImage node (.blank capacity), .ok { path, node, access := .append, capacity, cursor := 0 }) := by
    rw [Handle.create, if_neg (Nat.not_lt_of_le hcapacity)]
    simp only [Handle.createFile, if_neg hbound, h, Handle.format, if_neg (Nat.not_lt_of_le hfile), Except.map]
  obtain ⟨hpos, hlookup, -, himage, hopens, -⟩ := Handle.of_create hcreate
  have hempty : (Image.blank capacity).start = (Image.blank capacity).stop := by
    rw [Image.start_blank, Image.stop_blank]
  have hsound : Ring.Sound { image := .blank capacity, capacity, cursor := 0 } := ⟨hopens, hpos⟩
  have hholds := Session.holds_nil hsound hempty
  rw [← himage] at hopens hholds
  exact ⟨_, hcreate, hlookup, hopens, hholds.lies⟩

end Files

end FileSystem

/-! ## Appending and reading -/

namespace Command

section Run

variable {fs : FileSystem} {path : Path} {node capacity : Nat} {records : List Bytes}

/-- there is a ring file to append to, or one is made -/
theorem openOrCreate_eq (command : Command) (h : FileSystem.Offers command.path command.size capacity fs records) :
    ∃ found handle, command.openOrCreate fs = (found, .ok handle)
      ∧ found.Stores command.path handle.node capacity records ∧ handle.At command.path handle.node capacity := by
  obtain ⟨mode, path, size, json⟩ := command
  simp only at h
  cases h with
  | kept hbegins horderly =>
    obtain ⟨node, hreflects⟩ := hbegins.reflects
    have hstores := FileSystem.stores_of_reflects (hreflects.run horderly).1
    obtain ⟨place, hlookup⟩ := hstores.lookup
    obtain ⟨handle, hopen, hpath, rfl, hcapacity, hcursor⟩ := Handle.openRing_at hlookup hstores.opens .append
    refine ⟨_, handle, ?_, hstores, hpath, rfl, hcapacity, hcursor.trans_lt hstores.opens.start_lt⟩
    simp only [openOrCreate, hopen]
  | @missing size node _ made hcreate hsize hfile =>
    have hblock : ControlBlock.size ≤ size := (Nat.le_add_right _ _).trans hsize
    have hcapacity : Handle.minCapacity ≤ size - ControlBlock.size := Nat.le_sub_of_add_le' hsize
    obtain ⟨formatted, hmade, hstores⟩ := FileSystem.stores_create hcreate hcapacity
      (by rwa [Nat.add_sub_cancel' hblock])
    have hopen : Handle.openRing fs path .append = refuse (.opening (.system .notFound)) := by
      simp only [Handle.openRing, Handle.openFile, FileSystem.lookup_of_create hcreate, refuse, bind, Except.bind]
    have hnotfound : (Cause.system .notFound).isNotFound = true := rfl
    have hpos := hstores.opens.pos
    refine ⟨formatted, { path, node, access := .append, capacity := size - ControlBlock.size, cursor := 0 },
      ?_, hstores, rfl, rfl, rfl, hpos⟩
    simp only [openOrCreate, hopen, refuse, hnotfound, if_true, Option.map_some, Handle.capacityOfFileSize,
      if_neg (Nat.not_lt_of_le hsize), hmade]

/-- an append opens the file, or makes it, appends the lines of the input to its ring, and stores that -/
theorem runAppend_appendInput (command : Command)
    (h : FileSystem.Offers command.path command.size capacity fs records) :
    ∃ (found : FileSystem) (handle : Handle), found.Stores command.path handle.node capacity records
      ∧ (handle.ring found).Holds records ∧ (handle.ring found).capacity = capacity
      ∧ ∀ (input : Input) (r : Ring) (result : Outcome Unit), (handle.ring found).appendInput input = (r, result) →
        command.runAppend fs input = (found.setImage handle.node r.image, result) := by
  obtain ⟨found, handle, hopen, hstores, hhandle⟩ := openOrCreate_eq command h
  have hring : handle.ring found = { image := found.image handle.node, capacity, cursor := handle.cursor } := by
    rw [Handle.ring, hhandle.capacity_eq]
  refine ⟨found, handle, hstores, hring ▸ hstores.holds hhandle.cursor_lt, hhandle.capacity_eq, ?_⟩
  intro input r result happend
  have hnothing : lineBreak ∉ ([] : Bytes).reverse := List.not_mem_nil
  have hlines : appendLines input.broken (handle.ring found) [] input.bytes = (r, result) := by
    rw [appendLines_eq input.broken hnothing]
    exact happend
  simp only [runAppend, hopen, hlines, Ring.save]

/-- the lines of an input go behind the records of the file -/
theorem runAppend_eq (command : Command) (h : FileSystem.Offers command.path command.size capacity fs records)
    {text : Bytes} (hfits : ∀ line ∈ lines text, frameLength line.length < capacity) :
    ∃ found node kept, command.runAppend fs { bytes := text } = (found, .ok ())
      ∧ found.Stores command.path node capacity kept ∧ Queue.Longest capacity kept (records ++ lines text) := by
  obtain ⟨found, handle, hstores, hholds, rfl, hrun⟩ := runAppend_appendInput command h
  obtain ⟨r, kept, happend, hcapacity, hkept, hlongest⟩ := hholds.appendInput hholds.longest hfits
  exact ⟨_, handle.node, kept, hrun _ r _ happend, hstores.setImage hkept hcapacity, hlongest⟩

/-- the records of the file are printed -/
theorem runRead_eq {command : Command} (hpath : command.path = path) (h : fs.Stores path node capacity records)
    (written : Array UInt8) :
    command.runRead fs { written } = ({ written := written ++ (printed records).toArray }, .ok ()) := by
  subst hpath
  obtain ⟨place, hlookup⟩ := h.lookup
  obtain ⟨handle, hopen, -, hnode, hcapacity, hcursor⟩ := Handle.openRing_at hlookup h.opens .read
  have hring : handle.ring fs = { image := fs.image node, capacity, cursor := (fs.image node).start } := by
    rw [Handle.ring, hnode, hcapacity, hcursor]
  have hholds := h.holds h.opens.start_lt
  have hdrained := Ring.Drained.of_drain (hholds.drain rfl (Nat.lt_succ_self _)) (by decide)
  simp only [runRead, hopen, hring, print_eq hholds.toSound hdrained, emit_unlimited]

end Run

end Command

/-- **What is appended is printed.** Whatever requests left a ring file, or where there was none and it can be made: if
no line of the input is too long for the ring, all are appended, and what is printed afterwards are the newest of the
records and lines, as many as leave a byte of the circle free, each with a line break behind it. -/
theorem append_then_read {path : Path} {size : Option Nat} {capacity : Nat} {fs : FileSystem} {records : List Bytes}
    (hfound : FileSystem.Offers path size capacity fs records) (json : Bool) {text : Bytes}
    (hfits : ∀ line ∈ Command.lines text, frameLength line.length < capacity) (unused : Sink) :
    ∃ written kept, Command.run { mode := .append, path, size, json } fs { bytes := text } unused
        = (written, unused, .ok ())
      ∧ Queue.Longest capacity kept (records ++ Command.lines text)
      ∧ ∀ (reading : Command) (input : Input) (before : Array UInt8), reading.mode = .read → reading.path = path →
        reading.run written input { written := before }
          = (written, { written := before ++ (Command.printed kept).toArray }, .ok ()) := by
  obtain ⟨written, node, kept, happend, hstores, hlongest⟩ :=
    Command.runAppend_eq { mode := .append, path, size, json } hfound hfits
  refine ⟨written, kept, ?_, hlongest, ?_⟩
  · simp only [Command.run, happend]
  · intro reading input before hmode hpath
    simp only [Command.run, hmode, Command.runRead_eq hpath hstores before]

/-- a line, an empty one, and one without a line break behind it -/
def threeLines : Bytes := [0x31, 0x0A, 0x0A, 0x37]

theorem append_then_read_smallRequests :
    FileSystem.Offers FileSystem.singleName none 9 (smallSession.run FileSystem.singleName smallRequests).1.files
        [[5, 6, 7, 8]]
      ∧ (∀ line ∈ Command.lines threeLines, frameLength line.length < 9)
      ∧ ∃ written kept, Command.run { mode := .append, path := FileSystem.singleName }
          (smallSession.run FileSystem.singleName smallRequests).1.files { bytes := threeLines } {}
            = (written, {}, .ok ())
        ∧ Queue.Longest 9 kept [[5, 6, 7, 8], [0x31], [], [0x37]]
        ∧ ∀ (reading : Command) (input : Input) (before : Array UInt8), reading.mode = .read →
          reading.path = FileSystem.singleName →
          reading.run written input { written := before }
            = (written, { written := before ++ (Command.printed kept).toArray }, .ok ()) := by
  have hmade : Session.create {} "a" FileSystem.singleName 9 = (smallSession, .ok ()) := by decide +kernel
  have horderly : smallSession.Orderly FileSystem.singleName smallRequests := by decide +kernel
  have hrecords : (Queue.run 9 {} ((smallSession.run FileSystem.singleName smallRequests).2.map Prod.fst)).1.records
      = [[5, 6, 7, 8]] := by decide +kernel
  have hlines : Command.lines threeLines = [[0x31], [], [0x37]] := by decide +kernel
  have hfits : ∀ line ∈ Command.lines threeLines, frameLength line.length < 9 := by
    rw [hlines]
    decide
  have hfound : FileSystem.Offers FileSystem.singleName none 9 _ _ := .kept (.made hmade) horderly
  rw [hrecords] at hfound
  have happended := append_then_read hfound false hfits {}
  rw [hlines] at happended
  exact ⟨hfound, hfits, happended⟩

end CircularLog
