/-
The arguments of the command line, read from left to right. A flag acts where it is met. A size or a path is held back
until the next flag, path or size, or the end, and is checked then: so a request for help wins over what comes after it
and not over a faulty value before it.

One dash leads a cluster of letters, in which `s` takes the rest as its value; two dashes lead a long name, with its
value behind an equals sign. Two dashes alone end the flags. A dash alone is a value like any other.
-/
import CircularLog.Command
import CircularLog.Size

namespace CircularLog

/-- what the arguments ask for -/
inductive Request where
  | run (command : Command)
  | help
  | version
  /-- the arguments are at fault -/
  | misuse
deriving DecidableEq, Repr

namespace Arguments

inductive Flag where
  | verbose
  | stat
  | append
  | json
deriving DecidableEq, Repr

/-- what an option name stands for -/
inductive Name where
  | flag (flag : Flag)
  | size
  | help
  | version
deriving DecidableEq, Repr

def longNames : List (String × Name) :=
  [("verbose", .flag .verbose), ("size", .size), ("stat", .flag .stat), ("append", .flag .append),
    ("json", .flag .json), ("help", .help), ("version", .version)]

def letters : List (Char × Name) :=
  [('v', .flag .verbose), ('s', .size), ('S', .flag .stat), ('a', .flag .append), ('h', .help), ('V', .version)]

/-- a value that has not been checked yet -/
inductive Pending where
  | nothing
  /-- the option for a size was met, and perhaps its value -/
  | size (value : Option Bytes)
  | path (bytes : Bytes)
deriving DecidableEq, Repr

structure State where
  flags : List Flag := []
  size : Option Nat := none
  path : Option Path := none
  pending : Pending := .nothing
  /-- only paths follow -/
  pathsOnly : Bool := false
deriving DecidableEq, Repr

/-- a step ends early with a request that does not wait for the rest -/
abbrev Step := Except Request State

/-- checks the value that was held back -/
def State.settle (st : State) : Step :=
  match st.pending with
  | .nothing => .ok st
  | .size none => .error .misuse
  | .size (some value) =>
    match st.size, (Utf8.text? value).bind Size.parse with
    | none, some size => .ok { st with size := some size, pending := .nothing }
    | _, _ => .error .misuse
  | .path bytes =>
    if st.path.isSome ∨ bytes.isEmpty then .error .misuse
    else .ok { st with path := some ⟨bytes⟩, pending := .nothing }

/-- meets an option, which may carry a value -/
def State.option (st : State) (name : Name) (value : Option Bytes) : Step := do
  let st ← st.settle
  match name, value with
  | .flag flag, none =>
    if st.flags.contains flag then throw .misuse
    return { st with flags := flag :: st.flags }
  | .size, none => return { st with pending := .size none }
  | .size, some value => State.settle { st with pending := .size (some value) }
  | .help, none => throw .help
  | .version, none => throw .version
  | _, some _ => throw .misuse

def dash : UInt8 := 0x2D

def equals : UInt8 := 0x3D

/-- meets a long name, with an equals sign and a value behind it or not -/
def State.long (st : State) (bytes : Bytes) : Step :=
  let name := bytes.takeWhile (· ≠ equals)
  let value := if bytes.contains equals then some (bytes.drop (name.length + 1)) else none
  match (Utf8.text? name).bind (longNames.lookup ·) with
  | none => .error .misuse
  | some name => st.option name value

/-- meets a cluster of letters -/
def State.cluster (st : State) : Bytes → Step
  | [] => .ok st
  | b :: rest =>
    match letters.lookup (Char.ofNat b.toNat) with
    | none => .error .misuse
    | some .size =>
      if rest.isEmpty then st.option .size none
      else st.option .size (some (if rest.head? = some equals then rest.drop 1 else rest))
    | some name =>
      match st.option name none with
      | .error request => .error request
      | .ok st => State.cluster st rest

/-- meets a path, or the value that an option waits for -/
def State.plain (st : State) (bytes : Bytes) : Step :=
  if st.pending = .size none ∧ !st.pathsOnly then .ok { st with pending := .size (some bytes) }
  else do
    let st ← st.settle
    return { st with pending := .path bytes }

def State.meet (st : State) (argument : Bytes) : Step :=
  if st.pathsOnly then st.plain argument
  else if argument = [dash, dash] then .ok { st with pathsOnly := true }
  else
    match argument with
    | first :: second :: rest =>
      if first ≠ dash then st.plain argument
      else if second = dash then st.long rest
      else st.cluster (second :: rest)
    | _ => st.plain argument

/-- what all arguments together ask for: one path, not the usage and an append at once, and JSON only of the usage,
where the usage could have been asked for -/
def State.request (st : State) : Request :=
  let stat := st.flags.contains .stat
  let append := st.flags.contains .append
  match st.path with
  | none => .misuse
  | some path =>
    if stat ∧ append then .misuse
    else if st.flags.contains .json ∧ !stat ∧ !append then .misuse
    else
      .run
        { mode := if stat then .stat else if append then .append else .read
          path
          size := st.size
          json := st.flags.contains .json }

def parse (arguments : List Bytes) : Request :=
  match (do (← arguments.foldlM State.meet {}).settle : Step) with
  | .error request => request
  | .ok st => st.request

end Arguments

end CircularLog
