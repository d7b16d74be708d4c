/-
The command line appends lines until the input fails. An input fails where it breaks off, or at its first line that is
too long for the ring, whichever comes first. What stands before that place has been appended, and nothing else has
happened: the part of a line that was read before a break is lost, and no record is dropped for a line that cannot be
appended.

- `Command.linewise`: a text is a line with its line break and a text, or has no line break.
- `Command.lines_printed`: the lines of what is printed are the records.
- `Input.Fails`, `Input.fails`: where an input fails and of what its reader is told, which every faulty input does.
- `Input.Fails.appendInput`: a ring after an input that fails is the ring after the lines before that place.
- `append_stops_cleanly`: the same for the files, and what the ring file stores then.
-/
import CircularLog.Proofs.CommandLine

namespace CircularLog

namespace Command

/-! ## Lines without line breaks -/

/-- over the lines of a text: it begins with one, or has no line break -/
theorem linewise {motive : Bytes → Prop} (last : ∀ front, lineBreak ∉ front → motive front)
    (more : ∀ front rest, lineBreak ∉ front → motive rest → motive (front ++ lineBreak :: rest)) (text : Bytes) :
    motive text := by
  induction hlength : text.length using Nat.strong_induction_on generalizing text with
  | _ length ih =>
    by_cases hbreak : lineBreak ∈ text
    · obtain ⟨front, rest, rfl, hfront⟩ := List.eq_append_cons_of_mem hbreak
      rw [List.length_append, List.length_cons] at hlength
      exact more front rest hfront (ih rest.length (by omega) rest rfl)
    · exact last text hbreak

/-- a line has no line break -/
theorem not_mem_of_mem_lines {text : Bytes} : ∀ line ∈ lines text, lineBreak ∉ line := by
  induction text using linewise with
  | last front hfront =>
    rw [lines_last hfront]
    split
    · exact List.forall_mem_nil _
    · exact List.forall_mem_singleton.2 hfront
  | more front rest hfront ih =>
    rw [lines_front hfront]
    exact List.forall_mem_cons.2 ⟨hfront, ih⟩

theorem not_mem_of_mem_wholeLines {text : Bytes} : ∀ line ∈ wholeLines text, lineBreak ∉ line := by
  induction text using linewise with
  | last front hfront =>
    rw [wholeLines_last hfront]
    exact List.forall_mem_nil _
  | more front rest hfront ih =>
    rw [wholeLines_front hfront]
    exact List.forall_mem_cons.2 ⟨hfront, ih⟩

/-- records without line breaks are the lines of what is printed of them -/
theorem lines_printed {records : List Bytes} (h : ∀ record ∈ records, lineBreak ∉ record) :
    lines (printed records) = records := by
  induction records with
  | nil => rfl
  | cons record records ih =>
    obtain ⟨hfirst, hrest⟩ := List.forall_mem_cons.1 h
    have hprinted : printed (record :: records) = record ++ lineBreak :: printed records := by
      simp only [printed, List.flatMap_cons, List.append_assoc, List.singleton_append]
    rw [hprinted, lines_front hfirst, ih hrest]

end Command

/-! ## Where an input fails -/

namespace Input

/-- the input breaks off, or one of its lines is too long for a ring of this capacity -/
def Faulty (input : Input) (capacity : Nat) : Prop :=
  input.broken.isSome ∨ ∃ line ∈ input.lines, ¬frameLength line.length < capacity

/-- the lines before the place where an input fails, and what the caller is told there -/
inductive Fails (input : Input) (capacity : Nat) (path : Path) : List Bytes → Report → Prop
  | broken {cause : Cause} : input.broken = some cause → (∀ line ∈ input.lines, frameLength line.length < capacity) →
      Fails input capacity path input.lines { kind := .io, message := "reading stdin", cause }
  | tooLong {before after : List Bytes} {line : Bytes} : input.lines = before ++ line :: after →
      (∀ earlier ∈ before, frameLength earlier.length < capacity) → ¬frameLength line.length < capacity →
      Fails input capacity path before
        { kind := .recordTooLarge, message := "record cannot fit in a ring of " ++ toString capacity ++ " bytes", path
          size := line.length }

section Fails

variable {input : Input} {capacity : Nat} {path : Path} {before : List Bytes} {report : Report}

theorem not_mem_of_mem_lines : ∀ line ∈ input.lines, Command.lineBreak ∉ line := by
  rw [lines]
  split
  · exact Command.not_mem_of_mem_wholeLines
  · exact Command.not_mem_of_mem_lines

/-- a faulty input fails at its first line that is too long, or else where it breaks off -/
theorem fails (h : input.Faulty capacity) (path : Path) : ∃ before report, input.Fails capacity path before report := by
  cases hfirst : input.lines.find? fun line => ¬frameLength line.length < capacity with
  | some line =>
    obtain ⟨hlong, before, after, hlines, hbefore⟩ := List.find?_eq_some_iff_append.1 hfirst
    exact ⟨before, _, .tooLong hlines (by simpa using hbefore) (by simpa using hlong)⟩
  | none =>
    have hfits : ∀ line ∈ input.lines, frameLength line.length < capacity := by simpa using List.find?_eq_none.1 hfirst
    rcases h with hbroken | ⟨line, hline, hlong⟩
    · obtain ⟨cause, hcause⟩ := Option.isSome_iff_exists.1 hbroken
      exact ⟨_, _, .broken hcause hfits⟩
    · exact absurd (hfits line hline) hlong

theorem Fails.fits (h : input.Fails capacity path before report) :
    ∀ line ∈ before, frameLength line.length < capacity := by
  cases h with
  | broken _ hfits => exact hfits
  | tooLong _ hbefore _ => exact hbefore

theorem Fails.front (h : input.Fails capacity path before report) : before <+: input.lines := by
  cases h with
  | broken _ _ => exact List.prefix_refl _
  | tooLong hlines _ _ => exact hlines ▸ List.prefix_append _ _

/-- a text of the lines before the place -/
theorem Fails.lines_printed (h : input.Fails capacity path before report) :
    Input.lines { bytes := Command.printed before } = before :=
  Command.lines_printed fun line hline => not_mem_of_mem_lines line (h.front.subset hline)

end Fails

end Input

/-! ## Appending until then -/

section Append

variable {r r₁ : Ring} {input : Input} {path : Path} {before records : List Bytes} {report : Report}

theorem Ring.appendEach_append (h : r.appendEach before = (r₁, .ok ())) (after : List Bytes) :
    r.appendEach (before ++ after) = r₁.appendEach after := by
  induction before generalizing r with
  | nil =>
    obtain ⟨rfl, -⟩ := Prod.mk.inj h
    rfl
  | cons payload before ih =>
    rw [Ring.appendEach] at h
    rw [List.cons_append, Ring.appendEach]
    rcases happend : r.append payload with ⟨next, stop | ⟨⟩⟩
    · rw [happend] at h
      cases (Prod.mk.inj h).2
    · rw [happend] at h
      exact ih h

/-- an input that fails leaves the ring that the lines before the place leave, which holds the newest of them -/
theorem Input.Fails.appendInput (hfails : input.Fails r.capacity path before report) (h : r.Holds records) :
    ∃ refusal r₁ kept, refusal.report (some path) = report ∧ r.appendInput input = (r₁, refuse refusal)
      ∧ r.appendInput { bytes := Command.printed before } = (r₁, .ok ())
      ∧ r₁.capacity = r.capacity ∧ r₁.Holds kept ∧ Queue.Longest r.capacity kept (records ++ before) := by
  obtain ⟨r₁, kept, heach, hcapacity, hholds, hlongest⟩ := h.appendEach h.longest hfails.fits
  have hbefore : r.appendInput { bytes := Command.printed before } = (r₁, .ok ()) := by
    rw [Ring.appendInput, hfails.lines_printed, heach]
    rfl
  cases hfails with
  | @broken cause hbroken _ =>
    have hending : input.ending = refuse (.input cause) := by rw [Input.ending, hbroken, Option.elim_some]
    refine ⟨.input cause, r₁, kept, rfl, ?_, hbefore, hcapacity, hholds, hlongest⟩
    rw [Ring.appendInput, heach]
    simp only [hending]
  | @tooLong _ after line hlines _ hlong =>
    have hrefused : r₁.append line = (r₁, refuse (.recordTooLarge r₁.capacity line.length)) :=
      Ring.append_of_stop (Ring.makeRoom_of_not_fits (hcapacity ▸ hlong))
    refine ⟨.recordTooLarge r.capacity line.length, r₁, kept, rfl, ?_, hbefore, hcapacity, hholds, hlongest⟩
    rw [Ring.appendInput, hlines, Ring.appendEach_append heach, Ring.appendEach, hrefused, hcapacity]
    rfl

end Append

/-! ## The files -/

/-- **An append stops cleanly.** Whatever requests left a ring file, or where there was none and it can be made: if the
input breaks off, or has a line that is too long for the ring, the append fails at the first such place, and of that the
caller is told. The files are the same, byte for byte, as after an append of the lines before that place alone, which is
done: the file stores the newest of its records and of these lines, as many as leave a byte of the circle free. -/
theorem append_stops_cleanly {path : Path} {size : Option Nat} {capacity : Nat} {fs : FileSystem} {records : List Bytes}
    (hfound : FileSystem.Offers path size capacity fs records) (json : Bool) {input : Input}
    (hfaulty : input.Faulty capacity) (unused : Sink) :
    ∃ before report refusal files, input.Fails capacity path before report ∧ refusal.report (some path) = report
      ∧ Command.run { mode := .append, path, size, json } fs input unused = (files, unused, .error (.refused refusal))
      ∧ Command.run { mode := .append, path, size, json } fs { bytes := Command.printed before } unused
        = (files, unused, .ok ())
      ∧ ∃ node kept, files.Stores path node capacity kept ∧ Queue.Longest capacity kept (records ++ before) := by
  obtain ⟨before, report, hfails⟩ := Input.fails hfaulty path
  obtain ⟨found, handle, hstores, hholds, rfl, hrun⟩ :=
    Command.runAppend_appendInput { mode := .append, path, size, json } hfound
  obtain ⟨refusal, r₁, kept, hreport, hrefused, happended, hcapacity, hkept, hlongest⟩ := hfails.appendInput hholds
  refine ⟨before, report, refusal, found.setImage handle.node r₁.image, hfails, hreport, ?_, ?_, handle.node, kept,
    hstores.setImage hkept hcapacity, hlongest⟩
  · simp only [Command.run, hrun input r₁ _ hrefused, refuse]
  · simp only [Command.run, hrun _ r₁ _ happended]

/-- a line, one that is too long for nine bytes, and a part of another, at which the input breaks off -/
def faultyInput : Input :=
  { bytes := [0x31, 0x0A] ++ List.replicate 8 0x41 ++ [0x0A, 0x32], broken := some (.system .inputOutput) }

theorem append_stops_cleanly_smallRequests :
    FileSystem.Offers FileSystem.singleName none 9 (smallSession.run FileSystem.singleName smallRequests).1.files
        [[5, 6, 7, 8]]
      ∧ faultyInput.Faulty 9
      ∧ faultyInput.Fails 9 FileSystem.singleName [[0x31]]
          { kind := .recordTooLarge, message := "record cannot fit in a ring of 9 bytes", path := FileSystem.singleName
            size := some 8 }
      ∧ ∃ before report refusal files, faultyInput.Fails 9 FileSystem.singleName before report
        ∧ refusal.report (some FileSystem.singleName) = report
        ∧ Command.run { mode := .append, path := FileSystem.singleName }
            (smallSession.run FileSystem.singleName smallRequests).1.files faultyInput {}
          = (files, {}, .error (.refused refusal))
        ∧ Command.run { mode := .append, path := FileSystem.singleName }
            (smallSession.run FileSystem.singleName smallRequests).1.files { bytes := Command.printed before } {}
          = (files, {}, .ok ())
        ∧ ∃ node kept, files.Stores FileSystem.singleName node 9 kept
          ∧ Queue.Longest 9 kept ([[5, 6, 7, 8]] ++ before) := by
  have hmade : Session.create {} "a" FileSystem.singleName 9 = (smallSession, .ok ()) := by decide +kernel
  have horderly : smallSession.Orderly FileSystem.singleName smallRequests := by decide +kernel
  have hrecords : (Queue.run 9 {} ((smallSession.run FileSystem.singleName smallRequests).2.map Prod.fst)).1.records
      = [[5, 6, 7, 8]] := by decide +kernel
  have hlines : faultyInput.lines = [0x31] :: List.replicate 8 0x41 :: [] := by decide +kernel
  have hfound : FileSystem.Offers FileSystem.singleName none 9 _ _ := .kept (.made hmade) horderly
  rw [hrecords] at hfound
  have hfaulty : faultyInput.Faulty 9 := Or.inl rfl
  have hfits : ∀ line ∈ ([[0x31]] : List Bytes), frameLength line.length < 9 := by decide
  have hlong : ¬frameLength (List.replicate 8 (0x41 : UInt8)).length < 9 := by decide
  exact ⟨hfound, hfaulty, .tooLong hlines hfits hlong, append_stops_cleanly hfound false hfaulty {}⟩

end CircularLog
