/-
What is printed of a ring whose records come to an end, on an output that may fail. A record and its line break are
written one after the other, each in as many calls as the output likes, and between them the next record is read. All
the same the output gets the records with their line breaks up to the byte at which it fails, and of two failures the
one that comes first in this order is told: the output's, or else that of the record behind the last one that was read.

- `Sink.write_append`, `Sink.calls_iff`: writing in parts, and writing in calls that take a part each.
- `Ring.Drained`: the records from the cursor on, and how reading them ends.
- `Ring.Drained.length_lt`: where it ends, it does so before the places of the circle are used up, on whatever data.
- `Command.print_eq`: reading and writing in turns does the same as writing all records at once.
- `Command.Prints`, `Command.prints_iff_emit`: the loop as it calls the output, and all that it can come to.
- `print_under_failures`: the same for every file that opens.
-/
import CircularLog.Proofs.Draining

namespace CircularLog

/-! ## Writing in parts -/

namespace Sink

/-- the data handed over in calls, each of which takes some of it and a byte at least, until all is taken or none will
be -/
inductive Calls : Sink → Bytes → Sink → Outcome Unit → Prop
  | done {sink : Sink} : Calls sink [] sink (.ok ())
  | took {sink next last : Sink} {front rest : Bytes} {result : Outcome Unit} : front ≠ [] →
      sink.write front = (next, .ok ()) → Calls next rest last result → Calls sink (front ++ rest) last result
  | failed {sink : Sink} {data : Bytes} {limit : Nat} {cause : Cause} : data ≠ [] → sink.limit = some (limit, cause) →
      limit ≤ sink.written.size → Calls sink data sink (refuse (.output cause))

/-- the output with more bytes -/
def add (sink : Sink) (data : Bytes) : Sink := { sink with written := sink.written ++ data.toArray }

section Write

variable {sink next last : Sink} {data front rest : Bytes} {limit : Nat} {cause : Cause} {result : Outcome Unit}

@[simp] theorem size_add (sink : Sink) (data : Bytes) :
    (sink.add data).written.size = sink.written.size + data.length := by
  simp [add]

@[simp] theorem add_nil (sink : Sink) : sink.add [] = sink := by rw [add, Array.append_empty]

@[simp] theorem add_add (sink : Sink) (front rest : Bytes) : (sink.add front).add rest = sink.add (front ++ rest) := by
  simp only [add, Array.append_assoc, List.append_toArray]

theorem write_unlimited (hlimit : sink.limit = none) (data : Bytes) : sink.write data = (sink.add data, .ok ()) := by
  simp only [write, hlimit, add]

theorem write_limited (hlimit : sink.limit = some (limit, cause)) (data : Bytes) :
    sink.write data
      = if data.length ≤ limit - sink.written.size then (sink.add data, .ok ())
        else (sink.add (data.take (limit - sink.written.size)), refuse (.output cause)) := by
  simp only [write, hlimit, add]

theorem write_nil (sink : Sink) : sink.write [] = (sink, .ok ()) := by
  cases hlimit : sink.limit with
  | none => rw [write_unlimited hlimit, add_nil]
  | some bound =>
    obtain ⟨limit, cause⟩ := bound
    rw [write_limited hlimit, List.length_nil, if_pos (Nat.zero_le _), add_nil]

/-- two parts one after the other are written like the whole -/
theorem write_append (sink : Sink) (front rest : Bytes) :
    sink.write (front ++ rest)
      = match sink.write front with
        | (next, .error stop) => (next, .error stop)
        | (next, .ok ()) => next.write rest := by
  cases hlimit : sink.limit with
  | none =>
    have hlimit' : (sink.add front).limit = none := hlimit
    simp only [write_unlimited hlimit, write_unlimited hlimit', add_add]
  | some bound =>
    obtain ⟨limit, cause⟩ := bound
    have hlimit' : (sink.add front).limit = some (limit, cause) := hlimit
    rw [write_limited hlimit, write_limited hlimit, List.length_append]
    by_cases hfront : front.length ≤ limit - sink.written.size
    · simp only [if_pos hfront, write_limited hlimit', size_add, add_add, ← Nat.sub_sub]
      by_cases hrest : rest.length ≤ limit - sink.written.size - front.length
      · rw [if_pos hrest, if_pos (by omega)]
      · rw [if_neg hrest, if_neg (by omega), List.take_append, List.take_of_length_le hfront]
    · simp only [if_neg hfront]
      rw [if_neg (by omega), List.take_append_of_le_length (Nat.le_of_not_le hfront)]
      rfl

/-- what is taken at once is taken in one call -/
theorem Calls.of_write (hwrite : sink.write data = (next, .ok ())) : sink.Calls data next (.ok ()) := by
  by_cases hdata : data = []
  · subst hdata
    obtain ⟨rfl, -⟩ := Prod.mk.inj ((write_nil sink).symm.trans hwrite)
    exact .done
  · have hcalls := Calls.took hdata hwrite .done
    rwa [List.append_nil] at hcalls

/-- what there is no room for is taken up to the byte at which it fails -/
theorem Calls.part (hlimit : sink.limit = some (limit, cause)) (hlong : ¬data.length ≤ limit - sink.written.size) :
    sink.Calls data (sink.add (data.take (limit - sink.written.size))) (refuse (.output cause)) := by
  by_cases hfull : limit ≤ sink.written.size
  · have hdata : data ≠ [] := List.length_pos_iff.1 (by omega)
    rw [Nat.sub_eq_zero_of_le hfull, List.take_zero, add_nil]
    exact .failed hdata hlimit hfull
  · have hlength : (data.take (limit - sink.written.size)).length = limit - sink.written.size := by
      rw [List.length_take]
      omega
    have hfront : data.take (limit - sink.written.size) ≠ [] := List.length_pos_iff.1 (by omega)
    have hback : data.drop (limit - sink.written.size) ≠ [] := by
      apply List.length_pos_iff.1
      rw [List.length_drop]
      omega
    have htaken : sink.write (data.take (limit - sink.written.size))
        = (sink.add (data.take (limit - sink.written.size)), .ok ()) := by
      rw [write_limited hlimit, if_pos (Nat.le_of_eq hlength)]
    have hnone : limit ≤ (sink.add (data.take (limit - sink.written.size))).written.size := by
      rw [size_add]
      omega
    have hcalls := Calls.took hfront htaken (.failed hback hlimit hnone)
    rwa [List.take_append_drop] at hcalls

/-- in however many calls, the same is written -/
theorem calls_iff : sink.Calls data last result ↔ sink.write data = (last, result) := by
  constructor
  · intro hcalls
    induction hcalls with
    | done => exact write_nil _
    | took _ hwrite _ ih =>
      rw [write_append, hwrite]
      exact ih
    | failed hdata hlimit hfull =>
      have hpos := List.length_pos_iff.2 hdata
      rw [write_limited hlimit, Nat.sub_eq_zero_of_le hfull, if_neg (by omega), List.take_zero, add_nil]
  · intro hwrite
    cases hlimit : sink.limit with
    | none =>
      obtain ⟨rfl, rfl⟩ := Prod.mk.inj ((write_unlimited hlimit data).symm.trans hwrite)
      exact .of_write hwrite
    | some bound =>
      obtain ⟨limit, cause⟩ := bound
      have hlimited := (write_limited hlimit data).symm.trans hwrite
      by_cases hfits : data.length ≤ limit - sink.written.size
      · rw [if_pos hfits] at hlimited
        obtain ⟨rfl, rfl⟩ := Prod.mk.inj hlimited
        exact .of_write hwrite
      · rw [if_neg hfits] at hlimited
        obtain ⟨rfl, rfl⟩ := Prod.mk.inj hlimited
        -- a call takes what there is room for, and the next one fails
        exact Calls.part hlimit hfits

end Write

end Sink

/-! ## Records that come to an end -/

namespace Ring

/-- the records from the cursor on, and how reading them ends -/
inductive Drained : Ring → List Bytes → Ending → Prop
  | exhausted {r next : Ring} : r.record = .ok (next, none) → Drained r [] .exhausted
  | stopped {r : Ring} {stop : Stop} : r.record = .error stop → Drained r [] (.stopped stop)
  | more {r next : Ring} {payload : Bytes} {records : List Bytes} {ending : Ending} :
      r.record = .ok (next, some payload) → Drained next records ending → Drained r (payload :: records) ending

section Drained

variable {r last : Ring} {count i : Nat} {records others : List Bytes} {ending other : Ending}

/-- reading record after record until there is none, or none that can be read -/
theorem Drained.of_drainFrom {taken all : List Bytes} (hdrain : r.drainFrom count taken = (last, all, ending))
    (hended : ending ≠ .enough) : ∃ records, all = taken.reverse ++ records ∧ r.Drained records ending := by
  induction count generalizing r taken with
  | zero =>
    obtain ⟨-, -, rfl⟩ : r = last ∧ taken.reverse = all ∧ Ending.enough = ending := by simpa [drainFrom] using hdrain
    exact absurd rfl hended
  | succ count ih =>
    rw [drainFrom] at hdrain
    split at hdrain
    · next stop hrecord =>
      obtain ⟨-, rfl, rfl⟩ : r = last ∧ taken.reverse = all ∧ Ending.stopped stop = ending := by simpa using hdrain
      exact ⟨[], (List.append_nil _).symm, .stopped hrecord⟩
    · next next hrecord =>
      obtain ⟨-, rfl, rfl⟩ : next = last ∧ taken.reverse = all ∧ Ending.exhausted = ending := by simpa using hdrain
      exact ⟨[], (List.append_nil _).symm, .exhausted hrecord⟩
    · next next payload hrecord =>
      obtain ⟨records, rfl, hrest⟩ := ih hdrain
      refine ⟨payload :: records, ?_, .more hrecord hrest⟩
      rw [List.reverse_cons, List.append_assoc, List.singleton_append]

theorem Drained.of_drain (hdrain : r.drain count = (last, records, ending)) (hended : ending ≠ .enough) :
    r.Drained records ending := by
  obtain ⟨records', rfl, hdrained⟩ := Drained.of_drainFrom hdrain hended
  exact hdrained

theorem Drained.unique (h : r.Drained records ending) (h' : r.Drained others other) : records = others := by
  induction h generalizing others with
  | exhausted hrecord =>
    cases h' with
    | exhausted _ => rfl
    | stopped _ => rfl
    | more hrecord' _ => cases hrecord.symm.trans hrecord'
  | stopped hrecord =>
    cases h' with
    | exhausted _ => rfl
    | stopped _ => rfl
    | more hrecord' _ => cases hrecord.symm.trans hrecord'
  | more hrecord _ ih =>
    cases h' with
    | exhausted hrecord' => cases hrecord.symm.trans hrecord'
    | stopped hrecord' => cases hrecord.symm.trans hrecord'
    | more hrecord' hrest =>
      cases hrecord.symm.trans hrecord'
      rw [ih hrest]

/-- the records that are left are read from some place of the same circle -/
theorem Drained.place (hsound : r.Sound) (h : r.Drained records ending) (hi : i ≤ records.length) :
    ∃ place < r.capacity, (r.seek place).Drained (records.drop i) ending := by
  induction h generalizing i with
  | exhausted hrecord =>
    obtain rfl : i = 0 := Nat.le_zero.1 hi
    exact ⟨_, hsound.cursor_lt, .exhausted hrecord⟩
  | stopped hrecord =>
    obtain rfl : i = 0 := Nat.le_zero.1 hi
    exact ⟨_, hsound.cursor_lt, .stopped hrecord⟩
  | more hrecord hrest ih =>
    cases i with
    | zero => exact ⟨_, hsound.cursor_lt, .more hrecord hrest⟩
    | succ i =>
      obtain ⟨-, frame, -, rfl, -⟩ := (record_ok_iff hsound).1 hrecord
      exact ih (hsound.seek (Nat.mod_lt _ hsound.pos)) (Nat.le_of_succ_le_succ hi)

/-- no place is passed twice, or the records would never end -/
theorem Drained.length_lt (hsound : r.Sound) (h : r.Drained records ending) : records.length < r.capacity := by
  have hplaces : ∀ i : Fin (records.length + 1), ∃ place : Fin r.capacity,
      (r.seek place).Drained (records.drop i) ending := by
    intro i
    obtain ⟨place, hplace, hdrained⟩ := h.place hsound (Nat.le_of_lt_succ i.isLt)
    exact ⟨⟨place, hplace⟩, hdrained⟩
  choose place hdrained using hplaces
  have hinjective : Function.Injective place := by
    intro i j heq
    have hrest : records.drop i = records.drop j := (hdrained i).unique (heq ▸ hdrained j)
    have hlength := congrArg List.length hrest
    rw [List.length_drop, List.length_drop] at hlength
    omega
  have hcard := Fintype.card_le_of_injective place hinjective
  rwa [Fintype.card_fin, Fintype.card_fin] at hcard

end Drained

end Ring

/-! ## Printing them -/

/-- what reading the records came to -/
def Ring.Ending.result : Ring.Ending → Outcome Unit
  | .stopped stop => .error stop
  | .exhausted | .enough => .ok ()

namespace Command

/-- what is printed of the records -/
def printed (records : List Bytes) : Bytes := records.flatMap (· ++ [lineBreak])

/-- the output at the end of the records -/
def conclude (sink : Sink) : Ring.Ending → Sink × Outcome Unit
  | .stopped stop => (sink, .error stop)
  | .exhausted | .enough => sink.flush

/-- the records are written all at once, and how reading them ends is seen to behind that -/
def emit (sink : Sink) (records : List Bytes) (ending : Ring.Ending) : Sink × Outcome Unit :=
  match sink.write (printed records) with
  | (sink, .error stop) => (sink, .error stop)
  | (sink, .ok ()) => conclude sink ending

/-- the loop as it calls the output, which may fail in a record, in its line break or when it is flushed -/
inductive Prints : Ring → Sink → Sink → Outcome Unit → Prop
  | exhausted {r next : Ring} {sink after : Sink} {result : Outcome Unit} : r.record = .ok (next, none) →
      sink.flush = (after, result) → Prints r sink after result
  | stopped {r : Ring} {sink : Sink} {stop : Stop} : r.record = .error stop → Prints r sink sink (.error stop)
  | recordFailed {r next : Ring} {sink after : Sink} {payload : Bytes} {stop : Stop} :
      r.record = .ok (next, some payload) → sink.Calls payload after (.error stop) → Prints r sink after (.error stop)
  | breakFailed {r next : Ring} {sink filled after : Sink} {payload : Bytes} {stop : Stop} :
      r.record = .ok (next, some payload) → sink.Calls payload filled (.ok ()) →
      filled.Calls [lineBreak] after (.error stop) → Prints r sink after (.error stop)
  | more {r next : Ring} {sink filled broken after : Sink} {payload : Bytes} {result : Outcome Unit} :
      r.record = .ok (next, some payload) → sink.Calls payload filled (.ok ()) →
      filled.Calls [lineBreak] broken (.ok ()) → Prints next broken after result → Prints r sink after result

section Printing

variable {r next : Ring} {sink after : Sink} {records : List Bytes} {payload : Bytes} {ending : Ring.Ending}
  {fuel : Nat} {result : Outcome Unit}

/-- a record and a line break are written as the two of them together -/
theorem writeLine_eq (sink : Sink) (record : Bytes) : writeLine sink record = sink.write (record ++ [lineBreak]) := by
  exact (Sink.write_append sink record [lineBreak]).symm

theorem emit_cons (sink : Sink) (payload : Bytes) (records : List Bytes) (ending : Ring.Ending) :
    emit sink (payload :: records) ending
      = match writeLine sink payload with
        | (next, .error stop) => (next, .error stop)
        | (next, .ok ()) => emit next records ending := by
  have hprinted : printed (payload :: records) = (payload ++ [lineBreak]) ++ printed records := List.flatMap_cons
  rw [emit, hprinted, Sink.write_append, ← writeLine_eq]
  rcases writeLine sink payload with ⟨next, stop | ⟨⟩⟩
  · rfl
  · rfl

theorem emit_nil (sink : Sink) (ending : Ring.Ending) : emit sink [] ending = conclude sink ending := by
  have hprinted : printed [] = [] := List.flatMap_nil
  rw [emit, hprinted, Sink.write_nil]

/-- reading and writing in turns does the same as writing all records that there are -/
theorem printWithin_eq (h : r.Drained records ending) (hfuel : records.length < fuel) (sink : Sink) :
    printWithin fuel r sink = emit sink records ending := by
  induction h generalizing fuel sink with
  | exhausted hrecord =>
    obtain ⟨fuel, rfl⟩ := Nat.exists_eq_succ_of_ne_zero (Nat.ne_of_gt hfuel)
    rw [printWithin_succ, hrecord, emit_nil]
    rfl
  | stopped hrecord =>
    obtain ⟨fuel, rfl⟩ := Nat.exists_eq_succ_of_ne_zero (Nat.ne_of_gt hfuel)
    rw [printWithin_succ, hrecord, emit_nil]
    rfl
  | @more _ _ payload _ _ hrecord _ ih =>
    obtain ⟨fuel, rfl⟩ := Nat.exists_eq_succ_of_ne_zero (Nat.ne_of_gt (Nat.zero_lt_of_lt hfuel))
    simp only [printWithin_succ, hrecord, emit_cons]
    rcases writeLine sink payload with ⟨next, stop | ⟨⟩⟩
    · rfl
    · exact ih (Nat.lt_of_succ_lt_succ hfuel) next

theorem print_eq (hsound : r.Sound) (h : r.Drained records ending) (sink : Sink) :
    print r sink = emit sink records ending := by
  have hlength := h.length_lt hsound
  exact printWithin_eq h (by omega) sink

/-- a record and its line break: if the output fails in either of them, that is the end -/
theorem prints_more (hrecord : r.record = .ok (next, some payload)) :
    Prints r sink after result
      ↔ match writeLine sink payload with
        | (filled, .error stop) => (filled, .error stop) = (after, result)
        | (filled, .ok ()) => Prints next filled after result := by
  unfold writeLine
  constructor
  · intro hprints
    cases hprints with
    | exhausted hrecord' _ => cases hrecord.symm.trans hrecord'
    | stopped hrecord' => cases hrecord.symm.trans hrecord'
    | recordFailed hrecord' hfailed =>
      cases hrecord.symm.trans hrecord'
      rw [Sink.calls_iff.1 hfailed]
    | breakFailed hrecord' hfilled hfailed =>
      cases hrecord.symm.trans hrecord'
      simp only [Sink.calls_iff.1 hfilled, Sink.calls_iff.1 hfailed]
    | more hrecord' hfilled hbroken hrest =>
      cases hrecord.symm.trans hrecord'
      simp only [Sink.calls_iff.1 hfilled, Sink.calls_iff.1 hbroken]
      exact hrest
  · intro hwritten
    rcases hfilled : sink.write payload with ⟨filled, stop | ⟨⟩⟩
    · simp only [hfilled] at hwritten
      obtain ⟨rfl, rfl⟩ := Prod.mk.inj hwritten
      exact .recordFailed hrecord (Sink.calls_iff.2 hfilled)
    · rcases hbroken : filled.write [lineBreak] with ⟨broken, stop | ⟨⟩⟩
      · simp only [hfilled, hbroken] at hwritten
        obtain ⟨rfl, rfl⟩ := Prod.mk.inj hwritten
        exact .breakFailed hrecord (Sink.calls_iff.2 hfilled) (Sink.calls_iff.2 hbroken)
      · simp only [hfilled, hbroken] at hwritten
        exact .more hrecord (Sink.calls_iff.2 hfilled) (Sink.calls_iff.2 hbroken) hwritten

/-- the loop comes to the same in whatever calls it writes -/
theorem prints_iff_emit (h : r.Drained records ending) :
    Prints r sink after result ↔ emit sink records ending = (after, result) := by
  induction h generalizing sink with
  | exhausted hrecord =>
    rw [emit_nil]
    constructor
    · intro hprints
      cases hprints with
      | exhausted _ hflush => exact hflush
      | stopped hrecord' | recordFailed hrecord' _ | breakFailed hrecord' _ _ | more hrecord' _ _ _ =>
        cases hrecord.symm.trans hrecord'
    · intro hflush
      exact .exhausted hrecord hflush
  | stopped hrecord =>
    rw [emit_nil]
    constructor
    · intro hprints
      cases hprints with
      | stopped hrecord' =>
        cases hrecord.symm.trans hrecord'
        rfl
      | exhausted hrecord' _ | recordFailed hrecord' _ | breakFailed hrecord' _ _ | more hrecord' _ _ _ =>
        cases hrecord.symm.trans hrecord'
    · intro hstopped
      obtain ⟨rfl, rfl⟩ := Prod.mk.inj hstopped
      exact .stopped hrecord
  | @more _ _ payload _ _ hrecord _ ih =>
    rw [prints_more hrecord, emit_cons]
    rcases writeLine sink payload with ⟨filled, stop | ⟨⟩⟩
    · rfl
    · exact ih

/-- an output that takes everything gets all of the records -/
theorem emit_unlimited (written : Array UInt8) (records : List Bytes) :
    emit { written } records .exhausted = ({ written := written ++ (printed records).toArray }, .ok ()) := by
  rw [emit, Sink.write_unlimited rfl]
  rfl

/-- an output with room for some bytes gets as many of them, and the first failure is told -/
theorem emit_limited (room : Nat) (cause : Cause) (records : List Bytes) (ending : Ring.Ending) :
    emit { limit := some (room, cause) } records ending
      = ({ written := ((printed records).take room).toArray, limit := some (room, cause) },
        if room < (printed records).length then refuse (.output cause) else ending.result) := by
  have hadd (data : Bytes) : Sink.add { limit := some (room, cause) } data
      = { written := data.toArray, limit := some (room, cause) } := by rw [Sink.add, Array.empty_append]
  have hwrite : Sink.write { limit := some (room, cause) } (printed records)
      = if (printed records).length ≤ room then (Sink.add { limit := some (room, cause) } (printed records), .ok ())
        else (Sink.add { limit := some (room, cause) } ((printed records).take room), refuse (.output cause)) :=
    Sink.write_limited rfl _
  rw [emit, hwrite, hadd, hadd]
  by_cases hroom : room < (printed records).length
  · rw [if_pos hroom, if_neg (Nat.not_le_of_lt hroom)]
    rfl
  · rw [if_neg hroom, if_pos (Nat.le_of_not_lt hroom), List.take_of_length_le (Nat.le_of_not_lt hroom)]
    cases ending with
    | enough | exhausted | stopped => rfl

end Printing

end Command

/-! ## Files that open -/

/-- **What is printed on an output that fails.** On a file that opens, with whatever data, let reading come to an end
after some records, because there is no further one or because of a refusal. An output that takes so many bytes and then
fails gets the records with their line breaks up to there. If that was not all of them, the failure of the output is
told, or else the refusal, or else none. It is the same in whatever calls a record and a line break are written, and
nothing else can come of the loop. -/
theorem print_under_failures {fs : FileSystem} {handle : Handle} {command : Command} {count : Nat} {last : Ring}
    {records : List Bytes} {ending : Ring.Ending} (hmode : command.mode = .read)
    (hopen : Handle.openRing fs command.path .read = .ok handle) (hfile : (fs.image handle.node).size ≤ Image.maxSize)
    (hdrain : (handle.ring fs).drain count = (last, records, ending)) (hended : ending ≠ .enough) (input : Input)
    (room : Nat) (cause : Cause) :
    command.run fs input { limit := some (room, cause) }
        = (fs, { written := ((Command.printed records).take room).toArray, limit := some (room, cause) },
          if room < (Command.printed records).length then refuse (.output cause) else ending.result)
      ∧ (Refusal.output cause).report (some command.path)
        = { kind := .io, message := "writing stdout", path := command.path, cause }
      ∧ ∀ after result, Command.Prints (handle.ring fs) { limit := some (room, cause) } after result
        ↔ command.run fs input { limit := some (room, cause) } = (fs, after, result) := by
  obtain ⟨-, hopens, hhandle⟩ := Handle.of_openRing hopen hfile
  have hcursor : handle.cursor < handle.capacity := by
    rw [hhandle]
    exact hopens.start_lt
  have hsound := Handle.sound_ring hopens hcursor
  have hdrained := Ring.Drained.of_drain hdrain hended
  have hrun : command.run fs input { limit := some (room, cause) }
      = (fs, Command.emit { limit := some (room, cause) } records ending) := by
    simp only [Command.run, hmode, Command.runRead, hopen, Command.print_eq hsound hdrained]
  refine ⟨?_, rfl, ?_⟩
  · rw [hrun, Command.emit_limited]
  · intro after result
    rw [hrun, Command.prints_iff_emit hdrained]
    constructor
    · intro hemit
      rw [hemit]
    · intro hemit
      exact (Prod.mk.inj hemit).2

/-- a record of two bytes, an empty one, and a prefix that goes past the stop offset -/
def tornFile : FileSystem := .single 0 6 [0x02, 0xAA, 0xBB, 0x00, 0x07, 0xCC, 0xFF, 0xFF, 0xFF]

/-- the handle that it is opened with -/
def tornHandle : Handle := { path := FileSystem.singleName, node := 0, access := .read, capacity := 9, cursor := 0 }

theorem print_under_failures_tornFile :
    Handle.openRing tornFile FileSystem.singleName .read = .ok tornHandle
      ∧ (tornFile.image tornHandle.node).size ≤ Image.maxSize
      ∧ (∃ last, (tornHandle.ring tornFile).drain 3
          = (last, [[0xAA, 0xBB], []], .stopped (.refused (.frameTooLong 4 7))))
      -- the output fails at the line break of the empty record, or it takes that as well
      ∧ Command.run { mode := .read, path := FileSystem.singleName } tornFile { bytes := [] }
          { limit := some (3, .system .noSpace) }
        = (tornFile, { written := #[0xAA, 0xBB, 0x0A], limit := some (3, .system .noSpace) },
          refuse (.output (.system .noSpace)))
      ∧ Command.run { mode := .read, path := FileSystem.singleName } tornFile { bytes := [] }
          { limit := some (4, .system .noSpace) }
        = (tornFile, { written := #[0xAA, 0xBB, 0x0A, 0x0A], limit := some (4, .system .noSpace) },
          refuse (.frameTooLong 4 7)) := by
  have hopen : Handle.openRing tornFile FileSystem.singleName .read = .ok tornHandle := by decide
  have hfile : (tornFile.image tornHandle.node).size ≤ Image.maxSize := by decide
  have hdrain : (tornHandle.ring tornFile).drain 3
      = ((tornHandle.ring tornFile).seek 4, [[0xAA, 0xBB], []],
        .stopped (.refused (.frameTooLong 4 7))) := by decide +kernel
  have hended : Ring.Ending.stopped (.refused (.frameTooLong 4 7)) ≠ .enough := by decide
  have hmode : Command.mode { mode := .read, path := FileSystem.singleName } = .read := rfl
  have hprint := print_under_failures hmode hopen hfile hdrain hended { bytes := [] }
  exact ⟨hopen, hfile, ⟨_, hdrain⟩, (hprint 3 _).1, (hprint 4 _).1⟩

end CircularLog
