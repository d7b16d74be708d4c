/-
Strings of JSON. The quote, the backslash and the controls are escaped, those that have a letter by their letter; all
else stands for itself.
-/

namespace CircularLog.JsonString

def hexDigit (n : Nat) : Char := "0123456789abcdef".toList.getD n '0'

def escape (c : Char) : String :=
  if c = '"' then "\\\""
  else if c = '\\' then "\\\\"
  else if c = '\x08' then "\\b"
  else if c = '\t' then "\\t"
  else if c = '\n' then "\\n"
  else if c = '\x0C' then "\\f"
  else if c = '\r' then "\\r"
  else if c.toNat < 0x20 then "\\u00" ++ String.ofList [hexDigit (c.toNat / 16), hexDigit (c.toNat % 16)]
  else String.singleton c

def encode (text : String) : String := "\"" ++ String.join (text.toList.map escape) ++ "\""

end CircularLog.JsonString
