/-!
# Escapes in strings of documents

Quotation marks, backslashes and control characters are written with a backslash;
any character may be written by its UTF-16 units.
-/

set_option autoImplicit false

namespace Tenure.Json

def hexDigit (value : Nat) : Char :=
  if value < 10 then Char.ofNat ('0'.toNat + value) else Char.ofNat ('a'.toNat + (value - 10))

def hexValue? (character : Char) : Option Nat :=
  if '0' ≤ character && character ≤ '9' then some (character.toNat - '0'.toNat)
  else if 'a' ≤ character && character ≤ 'f' then some (character.toNat - 'a'.toNat + 10)
  else if 'A' ≤ character && character ≤ 'F' then some (character.toNat - 'A'.toNat + 10)
  else none

def unit? (first second third fourth : Char) : Option Nat := do
  let a ← hexValue? first
  let b ← hexValue? second
  let c ← hexValue? third
  let d ← hexValue? fourth
  return ((a * 16 + b) * 16 + c) * 16 + d

def escapeChar (character : Char) : List Char :=
  if character = '"' then ['\\', '"']
  else if character = '\\' then ['\\', '\\']
  else if character = '\n' then ['\\', 'n']
  else if character = '\r' then ['\\', 'r']
  else if character = '\t' then ['\\', 't']
  else if character = '\x08' then ['\\', 'b']
  else if character = '\x0c' then ['\\', 'f']
  else if character.toNat < 32 then
    ['\\', 'u', '0', '0', hexDigit (character.toNat / 16), hexDigit (character.toNat % 16)]
  else [character]

/-- A text as it stands between the quotation marks of a written string. -/
def escape (text : String) : String := String.ofList (text.toList.flatMap escapeChar)

/-- The character behind a backslash that stands for one other character. -/
def shortEscape? (character : Char) : Option Char :=
  if character = '"' then some '"'
  else if character = '\\' then some '\\'
  else if character = '/' then some '/'
  else if character = 'b' then some '\x08'
  else if character = 'f' then some '\x0c'
  else if character = 'n' then some '\n'
  else if character = 'r' then some '\r'
  else if character = 't' then some '\t'
  else none

def isLeadingHalf (unit : Nat) : Bool := 0xd800 ≤ unit && unit ≤ 0xdbff

def isTrailingHalf (unit : Nat) : Bool := 0xdc00 ≤ unit && unit ≤ 0xdfff

/-- The characters that a written string stands for. A backslash must begin an
escape, and halves of pairs must come in pairs. -/
def unescapeChars? : List Char → Option (List Char)
  | [] => some []
  | '\\' :: 'u' :: a :: b :: c :: d :: rest => do
    let unit ← unit? a b c d
    if isTrailingHalf unit then none
    else if isLeadingHalf unit then
      match rest with
      | '\\' :: 'u' :: e :: f :: g :: h :: others => do
        let second ← unit? e f g h
        if isTrailingHalf second then
          let decoded ← unescapeChars? others
          return Char.ofNat (0x10000 + (unit - 0xd800) * 1024 + (second - 0xdc00)) :: decoded
        else none
      | _ => none
    else
      let decoded ← unescapeChars? rest
      return Char.ofNat unit :: decoded
  | '\\' :: character :: rest => do
    let plain ← shortEscape? character
    let decoded ← unescapeChars? rest
    return plain :: decoded
  | ['\\'] => none
  | character :: rest => do
    let decoded ← unescapeChars? rest
    return character :: decoded

def unescape? (lexeme : String) : Option String :=
  (unescapeChars? lexeme.toList).map String.ofList

end Tenure.Json
