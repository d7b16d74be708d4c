/-
Text in bytes. `decode` gives the characters of a byte string, with `none` in place of each longest run of bytes that
starts a character and does not complete it, and of each byte that starts none. `display` shows such a place as U+FFFD.
-/
import CircularLog.Bytes

namespace CircularLog.Utf8

/-- inside a character: how many bytes are owed, the code point so far, and the least and greatest next byte -/
structure Pending where
  owed : Nat
  code : Nat
  least : Nat
  greatest : Nat
deriving DecidableEq, Repr

inductive Lead where
  | complete (c : Char)
  | pending (p : Pending)
  | invalid

/-- what the first byte of a character promises -/
def lead (b : UInt8) : Lead :=
  let n := b.toNat
  if n < 0x80 then .complete (Char.ofNat n)
  else if 0xC2 ≤ n ∧ n ≤ 0xDF then .pending ⟨1, n - 0xC0, 0x80, 0xBF⟩
  else if n = 0xE0 then .pending ⟨2, 0, 0xA0, 0xBF⟩
  else if n = 0xED then .pending ⟨2, 0xD, 0x80, 0x9F⟩
  else if 0xE1 ≤ n ∧ n ≤ 0xEF then .pending ⟨2, n - 0xE0, 0x80, 0xBF⟩
  else if n = 0xF0 then .pending ⟨3, 0, 0x90, 0xBF⟩
  else if 0xF1 ≤ n ∧ n ≤ 0xF3 then .pending ⟨3, n - 0xF0, 0x80, 0xBF⟩
  else if n = 0xF4 then .pending ⟨3, 4, 0x80, 0x8F⟩
  else .invalid

/-- the characters of the bytes, read on from between characters or from inside one -/
def decodeFrom : Option Pending → Bytes → List (Option Char)
  | none, [] => []
  | some _, [] => [none]
  | none, b :: rest =>
    match lead b with
    | .complete c => some c :: decodeFrom none rest
    | .pending p => decodeFrom (some p) rest
    | .invalid => none :: decodeFrom none rest
  | some p, b :: rest =>
    if p.least ≤ b.toNat ∧ b.toNat ≤ p.greatest then
      let code := p.code * 64 + (b.toNat - 0x80)
      if p.owed = 1 then some (Char.ofNat code) :: decodeFrom none rest
      else decodeFrom (some ⟨p.owed - 1, code, 0x80, 0xBF⟩) rest
    else
      none :: match lead b with
        | .complete c => some c :: decodeFrom none rest
        | .pending q => decodeFrom (some q) rest
        | .invalid => none :: decodeFrom none rest

def decode (bytes : Bytes) : List (Option Char) := decodeFrom none bytes

/-- the text of the bytes, with U+FFFD where they are no text -/
def display (bytes : Bytes) : String := String.ofList ((decode bytes).map (·.getD '\uFFFD'))

/-- the text of the bytes, if they are text throughout -/
def text? (bytes : Bytes) : Option String :=
  let chars := decode bytes
  if chars.all Option.isSome then some (String.ofList (chars.filterMap id)) else none

def encode (text : String) : Bytes := text.toUTF8.data.toList

end CircularLog.Utf8
