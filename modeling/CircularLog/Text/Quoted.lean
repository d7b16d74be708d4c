/-
Text between quotes. The quote, the backslash and the usual blanks have short escapes; a character that would not show,
or that would join the one before it, is written by its number.
-/
import CircularLog.Text.Unprintable

namespace CircularLog.Quoted

/-- the number in lower-case hexadecimal digits, with no leading zero -/
def hex (n : Nat) : String := String.ofList (Nat.toDigits 16 n)

def escape (c : Char) : String :=
  if c = '\x00' then "\\0"
  else if c = '\t' then "\\t"
  else if c = '\r' then "\\r"
  else if c = '\n' then "\\n"
  else if c = '"' then "\\\""
  else if c = '\\' then "\\\\"
  else if isUnprintable c then "\\u\x7b" ++ hex c.toNat ++ "\x7d"
  else String.singleton c

def encode (text : String) : String := "\"" ++ String.join (text.toList.map escape) ++ "\""

end CircularLog.Quoted
