import Tenure.Text.Hidden

/-!
# Inspected text

The form of a text in diagnostics: it stands between quotation marks, and what
could not be told apart on a screen is written with a backslash.
-/

set_option autoImplicit false

namespace Tenure.Text

def hexDigits (number : Nat) : String := String.ofList (Nat.toDigits 16 number)

def inspectChar (character : Char) : String :=
  if character = '\x00' then "\\0"
  else if character = '\t' then "\\t"
  else if character = '\n' then "\\n"
  else if character = '\r' then "\\r"
  else if character = '"' then "\\\""
  else if character = '\\' then "\\\\"
  else if isHidden character then "\\u\x7b" ++ hexDigits character.toNat ++ "\x7d"
  else character.toString

def inspect (text : String) : String :=
  "\"" ++ text.foldl (fun written character => written ++ inspectChar character) "" ++ "\""

end Tenure.Text
